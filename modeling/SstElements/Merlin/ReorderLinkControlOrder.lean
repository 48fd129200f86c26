import SstElements.Library.MachineWord
import SstElements.Library.ReorderBuffer
import SstElements.Library.Transition
import SstElements.Merlin.ReorderLinkControl

/-!
# The order that reorder link controls restore

For each pair of endpoints the receiver is a reorder buffer over sequence
numbers of 32 bits.  It puts a request into the buffer of the virtual network
on which the missing one arrived, so requests have to be waited for on their
own virtual network.
-/

namespace SstElements.Merlin.ReorderLinkControl

open Library ReorderBuffer Function List Option

variable {α : Type}

section Queue

/-- Sequence numbers are the numbers of the requests in 32 bits. -/
def seqTags : TagScheme UInt32 := .uint32

def number (req : ReorderRequest α) : Nat := req.seq.toNat

/-- The priority queue of the requests that wait, with the dummy behind them. -/
def queueOf (held : OrderedMap UInt32 (ReorderRequest α)) : List (ReorderRequest α) :=
  held.entries.map Prod.snd ++ [dummy]

/-- The requests wait under their numbers, none of which is the dummy's. -/
def Keyed (held : OrderedMap UInt32 (ReorderRequest α)) : Prop :=
  ∀ k p, held.find? k = some p → k = p.seq ∧ p.seq < 0xffffffff

variable {held : OrderedMap UInt32 (ReorderRequest α)}

theorem Keyed.of_mem (h : Keyed held) {e : UInt32 × ReorderRequest α} (he : e ∈ held.entries) :
    e.1 = e.2.seq ∧ e.2.seq < 0xffffffff :=
  h e.1 e.2 ((OrderedMap.mem_entries_iff held e.1 e.2).mp he)

variable {req : ReorderRequest α} {recv : UInt32}

theorem orderedInsert_entries {l : List (UInt32 × ReorderRequest α)}
    (hkeys : ∀ e ∈ l, e.1 = e.2.seq ∧ e.2.seq < 0xffffffff) (hnew : ∀ e ∈ l, e.1 ≠ req.seq)
    (hlast : req.seq < 0xffffffff) :
    pushQueue (l.map Prod.snd ++ [dummy]) req =
      (OrderedMap.insertEntry req.seq req l).map Prod.snd ++ [dummy] := by
  induction l with
  | nil =>
    have hle : req.seq ≤ (dummy : ReorderRequest α).seq := UInt32.le_of_lt hlast
    simp [pushQueue, OrderedMap.insertEntry, hle]
  | cons e l ih =>
    obtain ⟨k, p⟩ := e
    obtain ⟨hk, hp⟩ := hkeys (k, p) mem_cons_self
    have hne : k ≠ req.seq := hnew (k, p) mem_cons_self
    have hrest := ih (fun e he => hkeys e (mem_cons_of_mem _ he))
      (fun e he => hnew e (mem_cons_of_mem _ he))
    dsimp only at hk
    subst hk
    by_cases hlt : req.seq < p.seq
    · simp [pushQueue, OrderedMap.insertEntry, hlt, UInt32.le_of_lt hlt]
    · have hnle : ¬ req.seq ≤ p.seq := fun hle => hlt (UInt32.lt_of_le_of_ne hle (Ne.symm hne))
      simp only [pushQueue] at hrest
      simp [pushQueue, OrderedMap.insertEntry, hlt, hnle, Ne.symm hne, hrest]

theorem pushQueue_queueOf (h : Keyed held) (hnew : held.find? req.seq = none)
    (hlast : req.seq < 0xffffffff) :
    pushQueue (queueOf held) req = queueOf (held.insert req.seq req) := by
  refine orderedInsert_entries (fun e he => h.of_mem he) (fun e he heq => ?_) hlast
  rw [← heq, (OrderedMap.mem_entries_iff held e.1 e.2).mp he] at hnew
  cases hnew

theorem Keyed.erase (h : Keyed held) (k : UInt32) : Keyed (held.erase k) := by
  intro k' p hp
  rw [OrderedMap.find?_erase] at hp
  split at hp
  · cases hp
  · exact h k' p hp

theorem release_dummy (hroom : recv.toNat < 2 ^ 32 - 1) :
    ReorderLinkControl.release [(dummy : ReorderRequest α)] recv = some ([], recv, [dummy]) := by
  have hne : ¬ (dummy : ReorderRequest α).seq = recv := by
    intro heq
    have hlast : (dummy : ReorderRequest α).seq.toNat = 2 ^ 32 - 1 := rfl
    rw [← heq] at hroom
    omega
  rw [ReorderLinkControl.release, if_neg hne]

theorem release_queueOf {fuel : Nat} (h : Keyed held) (hfuel : held.entries.length ≤ fuel)
    (hlow : ∀ e ∈ held.entries, recv ≤ e.1)
    (hroom : recv.toNat + held.entries.length < 2 ^ 32 - 1) :
    ReorderLinkControl.release (queueOf held) recv =
      some ((ReorderBuffer.release seqTags.next fuel recv held).1,
        (ReorderBuffer.release seqTags.next fuel recv held).2.1,
        queueOf (ReorderBuffer.release seqTags.next fuel recv held).2.2) := by
  induction fuel generalizing held recv with
  | zero =>
    have hempty : held.entries = [] := length_eq_zero_iff.mp (Nat.le_zero.mp hfuel)
    rw [hempty] at hroom
    simp only [queueOf, hempty, map_nil, nil_append, ReorderBuffer.release]
    exact release_dummy hroom
  | succ fuel ih =>
    cases hentries : held.entries with
    | nil =>
      have hnone : held.find? recv = none := by
        rw [OrderedMap.find?, hentries]
        rfl
      rw [hentries] at hroom
      simp only [ReorderBuffer.release, hnone, queueOf, hentries, map_nil, nil_append]
      exact release_dummy hroom
    | cons e rest =>
      obtain ⟨k, p⟩ := e
      have hmem : (k, p) ∈ held.entries := hentries ▸ mem_cons_self
      obtain ⟨hk, -⟩ := h.of_mem hmem
      have hsorted := held.sorted
      rw [hentries, pairwise_cons] at hsorted
      have hqueue : queueOf held = p :: (rest.map Prod.snd ++ [dummy]) := by
        rw [queueOf, hentries]
        rfl
      rw [hqueue, ReorderLinkControl.release]
      dsimp only at hk
      by_cases heq : p.seq = recv
      · subst heq
        have hfind : held.find? p.seq = some p := by
          rw [← hk]
          exact (OrderedMap.mem_entries_iff held k p).mp hmem
        have hrest : (held.erase p.seq).entries = rest := by
          rw [OrderedMap.erase]
          dsimp only
          rw [hentries, filter_cons_of_neg (by simp [hk]), filter_eq_self]
          intro e he
          have hlt := hsorted.1 e he
          rw [hk] at hlt
          simpa using hlt.ne'
        have hlen : p.seq.toNat + 1 + rest.length < 2 ^ 32 - 1 := by
          rw [hentries, length_cons] at hroom
          omega
        have hnext : (p.seq + 1).toNat = p.seq.toNat + 1 := by
          rw [UInt32.toNat_add]
          have hone : (1 : UInt32).toNat = 1 := rfl
          omega
        have hstep := @ih (held.erase p.seq) (p.seq + 1) (h.erase p.seq) (by
            rw [hrest]
            rw [hentries, length_cons] at hfuel
            omega)
          (by
            intro e he
            have hlt := hsorted.1 e (hrest ▸ he)
            rw [hk, UInt32.lt_iff_toNat_lt] at hlt
            rw [UInt32.le_iff_toNat_le, hnext]
            exact hlt)
          (by
            rw [hrest, hnext]
            exact hlen)
        rw [queueOf, hrest] at hstep
        rw [if_pos rfl, hstep, ReorderBuffer.release, hfind]
        rfl
      · have hlt : recv < k :=
          lt_of_le_of_ne (hlow (k, p) hmem) (fun hrk => heq (hk ▸ hrk.symm))
        have hnone : held.find? recv = none := by
          refine OrderedMap.findEntry_eq_none_of_lt fun e he => ?_
          rw [hentries] at he
          rcases mem_cons.mp he with rfl | he
          · exact hlt
          · exact hlt.trans (hsorted.1 e he)
        rw [if_neg heq, ReorderBuffer.release, hnone, hqueue]

end Queue

variable {r : ReorderRequest α}

section Pairs

/-- The requests of a pair that the network has still to deliver. -/
def Network.away (s : Network α) (src dest : Nat) : Multiset (ReorderRequest α) :=
  (s.inFlight : Multiset (ReorderRequest α)).filter (fun r => r.src = src ∧ r.dest = dest)

/-- What an endpoint has received from a virtual network, and what it can receive. -/
def Network.yielded (s : Network α) (dest vn : Nat) : List (ReorderRequest α) :=
  s.received dest vn ++ (s.endpoints dest).input_buf vn

/-- What a pair has sent, with the part that can be received or has been. -/
structure PairOrdered (s : Network α) (src dest n : Nat)
    (held : OrderedMap UInt32 (ReorderRequest α)) : Prop where
  send_eq : ((s.endpoints src).reorder_info dest).send =
    UInt32.ofNat (s.sent src dest).length
  room : (s.sent src dest).length < 2 ^ 32 - 1
  origin : ∀ r ∈ s.sent src dest, r.src = src ∧ r.dest = dest
  queue_eq : ((s.endpoints dest).reorder_info src).queue = queueOf held
  reassembly : Reassembly seqTags number (s.sent src dest) n (s.away src dest)
    ((s.endpoints dest).reorder_info src).recv held
  waiting : held.find? ((s.endpoints dest).reorder_info src).recv = none
  in_order : ∀ vn, (s.yielded dest vn).filter (fun r => r.src = src) =
    ((s.sent src dest).take n).filter (fun r => r.vn = vn)

/-- The invariant of all pairs; what is in flight has been sent. -/
structure Ordered (s : Network α) : Prop where
  pairs : ∀ src dest, ∃ n held, PairOrdered s src dest n held

variable {s t : Network α} {src dest n : Nat}
variable {held : OrderedMap UInt32 (ReorderRequest α)}

theorem PairOrdered.congr (h : PairOrdered s src dest n held)
    (hsend : ((t.endpoints src).reorder_info dest).send =
      ((s.endpoints src).reorder_info dest).send)
    (hsent : t.sent src dest = s.sent src dest)
    (hqueue : ((t.endpoints dest).reorder_info src).queue =
      ((s.endpoints dest).reorder_info src).queue)
    (hrecv : ((t.endpoints dest).reorder_info src).recv =
      ((s.endpoints dest).reorder_info src).recv)
    (haway : t.away src dest = s.away src dest)
    (hyielded : ∀ vn, (t.yielded dest vn).filter (fun r => r.src = src) =
      (s.yielded dest vn).filter (fun r => r.src = src)) :
    PairOrdered t src dest n held := by
  obtain ⟨h₁, h₂, h₃, h₄, h₅, h₆, h₇⟩ := h
  refine ⟨?_, hsent ▸ h₂, hsent ▸ h₃, hqueue.trans h₄, ?_, ?_, fun vn => ?_⟩
  · rw [hsend, hsent, h₁]
  · rw [hsent, haway, hrecv]
    exact h₅
  · rw [hrecv]
    exact h₆
  · rw [hyielded, hsent, h₇]

variable {recv : UInt32} {m vn e : Nat} {packets : List (ReorderRequest α)}
variable {away : Multiset (ReorderRequest α)} {req : Request α}

section

variable (h : Reassembly seqTags number packets m away recv held)
variable (hroom : packets.length < 2 ^ 32 - 1)
include h hroom

theorem reassembly_room : recv.toNat = m ∧ m + held.entries.length ≤ packets.length := by
  have hcard := congrArg Multiset.card h.pending
  have hbound := h.bound
  have hsize : UInt32.size = 2 ^ 32 := rfl
  rw [Multiset.card_add, Multiset.coe_card, length_drop] at hcard
  have hheld : Multiset.card (ReorderBuffer.values held) = held.entries.length := by
    rw [ReorderBuffer.values, Multiset.coe_card, length_map]
  refine ⟨?_, by omega⟩
  rw [h.expected_eq]
  exact UInt32.toNat_ofNat_of_lt' (by omega)

theorem keyed_of_reassembly : Keyed held := by
  intro k p hp
  have hmem : p ∈ ReorderBuffer.values held := ReorderBuffer.mem_values_iff.mpr ⟨k, hp⟩
  have hget := (h.mem_pending (.inr hmem)).2
  have hlt : number p < packets.length := (List.getElem?_eq_some_iff.mp hget).1
  refine ⟨(h.keyed k p hp).trans ?_, ?_⟩
  · exact UInt32.ofNat_toNat
  · rw [UInt32.lt_iff_toNat_lt]
    exact hlt.trans hroom

theorem release_eq :
    ReorderLinkControl.release (queueOf held) recv =
      some ((ReorderBuffer.release seqTags.next held.entries.length recv held).1,
        (ReorderBuffer.release seqTags.next held.entries.length recv held).2.1,
        queueOf (ReorderBuffer.release seqTags.next held.entries.length recv held).2.2) := by
  obtain ⟨hrecv, hlen⟩ := reassembly_room h hroom
  have hkeyed := keyed_of_reassembly h hroom
  refine release_queueOf hkeyed le_rfl (fun e he => ?_) (by omega)
  have hmem : e.2 ∈ ReorderBuffer.values held :=
    ReorderBuffer.mem_values_iff.mpr ⟨e.1, (OrderedMap.mem_entries_iff held _ _).mp he⟩
  have hle := (h.mem_pending (.inr hmem)).1
  rw [(hkeyed.of_mem he).1, UInt32.le_iff_toNat_le, hrecv]
  exact hle

end

@[simp]
theorem setPair_apply {β : Type} {f : Nat → Nat → β} {a b i j : Nat} {v : β} :
    setPair f a b v i j = if i = a ∧ j = b then v else f i j := by
  unfold setPair
  by_cases hi : i = a
  · subst hi
    by_cases hj : j = b
    · subst hj
      simp
    · simp [hj]
  · simp [hi]

theorem Network.away_cons {req : ReorderRequest α} :
    ({ s with inFlight := req :: s.inFlight } : Network α).away src dest =
      if req.src = src ∧ req.dest = dest then req ::ₘ s.away src dest
      else s.away src dest := by
  rw [Network.away, ← Multiset.cons_coe, Multiset.filter_cons]
  split <;> rfl

def Network.afterSend (s : Network α) (req : Request α) (vn : Nat) : Network α :=
  { s with
    endpoints := update s.endpoints req.src ((s.endpoints req.src).send req vn).1
    inFlight := ((s.endpoints req.src).send req vn).2 :: s.inFlight
    sent := setPair s.sent req.src req.dest
      (s.sent req.src req.dest ++ [((s.endpoints req.src).send req vn).2]) }

theorem send_info {e : Endpoint α} {k : Nat} :
    ((e.send req vn).1.reorder_info k).recv = (e.reorder_info k).recv ∧
      ((e.send req vn).1.reorder_info k).queue = (e.reorder_info k).queue ∧
      ((e.send req vn).1.reorder_info k).send =
        if k = req.dest then (e.reorder_info k).send + 1 else (e.reorder_info k).send := by
  by_cases hk : k = req.dest
  · subst hk
    simp [Endpoint.send]
  · simp [Endpoint.send, hk]

theorem Ordered.afterSend (h : Ordered s)
    (hroom : ((s.endpoints req.src).reorder_info req.dest).send < 0xfffffffe) :
    Ordered (s.afterSend req vn) := by
  refine ⟨fun src dest => ?_⟩
  obtain ⟨n, held, hpair⟩ := h.pairs src dest
  refine ⟨n, held, ?_⟩
  have hinfo : ∀ e k, (((s.afterSend req vn).endpoints e).reorder_info k).recv =
        ((s.endpoints e).reorder_info k).recv ∧
      (((s.afterSend req vn).endpoints e).reorder_info k).queue =
        ((s.endpoints e).reorder_info k).queue ∧
      (((s.afterSend req vn).endpoints e).reorder_info k).send =
        if e = req.src ∧ k = req.dest then ((s.endpoints e).reorder_info k).send + 1
        else ((s.endpoints e).reorder_info k).send := by
    intro e k
    by_cases he : e = req.src
    · subst he
      simp only [Network.afterSend, update_self, true_and]
      exact send_info
    · simp [Network.afterSend, he]
  have hbuf : ∀ e, ((s.afterSend req vn).endpoints e).input_buf =
      (s.endpoints e).input_buf := by
    intro e
    by_cases he : e = req.src
    · subst he
      simp [Network.afterSend, Endpoint.send]
    · simp [Network.afterSend, he]
  have hyielded : ∀ v, (s.afterSend req vn).yielded dest v = s.yielded dest v := by
    intro v
    rw [Network.yielded, hbuf]
    rfl
  have haway : (s.afterSend req vn).away src dest = if req.src = src ∧ req.dest = dest
      then ((s.endpoints req.src).send req vn).2 ::ₘ s.away src dest
      else s.away src dest :=
    Network.away_cons
  by_cases hpairs : src = req.src ∧ dest = req.dest
  · obtain ⟨rfl, rfl⟩ := hpairs
    have hlen : (s.sent req.src req.dest).length < 2 ^ 32 - 2 := by
      have hsize : UInt32.size = 2 ^ 32 := rfl
      have hsmall := hpair.room
      have hnat : (UInt32.ofNat (s.sent req.src req.dest).length).toNat =
          (s.sent req.src req.dest).length := UInt32.toNat_ofNat_of_lt' (by omega)
      rw [hpair.send_eq, UInt32.lt_iff_toNat_lt, hnat] at hroom
      exact hroom
    have hnumber : number ((s.endpoints req.src).send req vn).2 =
        (s.sent req.src req.dest).length := by
      rw [number, Endpoint.send]
      rw [hpair.send_eq]
      exact UInt32.toNat_ofNat_of_lt' (by have hsize : UInt32.size = 2 ^ 32 := rfl; omega)
    have hsent : (s.afterSend req vn).sent req.src req.dest =
        s.sent req.src req.dest ++ [((s.endpoints req.src).send req vn).2] := by
      simp [Network.afterSend]
    refine ⟨?_, ?_, ?_, ?_, ?_, ?_, fun v => ?_⟩
    · rw [(hinfo _ _).2.2, if_pos ⟨rfl, rfl⟩, hpair.send_eq, hsent, length_append]
      exact (UInt32.ofNat_add _ 1).symm
    · rw [hsent, length_append, length_singleton]
      omega
    · rw [hsent]
      intro r hr
      rcases mem_append.mp hr with hr | hr
      · exact hpair.origin r hr
      · rw [mem_singleton.mp hr]
        exact ⟨rfl, rfl⟩
    · rw [(hinfo _ _).2.1, hpair.queue_eq]
    · rw [hsent, haway, if_pos ⟨rfl, rfl⟩, (hinfo _ _).1]
      exact hpair.reassembly.send hnumber
    · rw [(hinfo _ _).1]
      exact hpair.waiting
    · rw [hyielded, hsent, hpair.in_order, take_append_of_le_length]
      exact hpair.reassembly.bound
  · have hother : ¬ (req.src = src ∧ req.dest = dest) :=
      fun hsame => hpairs ⟨hsame.1.symm, hsame.2.symm⟩
    refine hpair.congr ?_ ?_ (hinfo _ _).2.1 (hinfo _ _).1 ?_ fun v => ?_
    · rw [(hinfo _ _).2.2, if_neg hpairs]
    · simp [Network.afterSend, hpairs]
    · rw [haway, if_neg hother]
    · rw [hyielded]

theorem recv_spec {e : Endpoint α} {vn : Nat} :
    (e.recv vn).1.reorder_info = e.reorder_info ∧
      (e.recv vn).2.toList ++ (e.recv vn).1.input_buf vn = e.input_buf vn ∧
      ∀ v, v ≠ vn → (e.recv vn).1.input_buf v = e.input_buf v := by
  unfold Endpoint.recv
  split
  · exact ⟨rfl, rfl, fun _ _ => rfl⟩
  · rename_i req rest hbuf
    exact ⟨rfl, by simp [hbuf], fun v hv => update_of_ne hv _ _⟩

theorem Ordered.afterRecv (h : Ordered s) :
    Ordered { s with
      endpoints := update s.endpoints e ((s.endpoints e).recv vn).1
      received := setPair s.received e vn
        (s.received e vn ++ ((s.endpoints e).recv vn).2.toList) } := by
  obtain ⟨hsame, hfront, hrest⟩ := @recv_spec α (s.endpoints e) vn
  have hinfo : ∀ k, (update s.endpoints e ((s.endpoints e).recv vn).1 k).reorder_info =
      (s.endpoints k).reorder_info := by
    intro k
    by_cases hk : k = e
    · subst hk
      rw [update_self, hsame]
    · rw [update_of_ne hk]
  refine ⟨fun src dest => ?_⟩
  obtain ⟨n, held, hpair⟩ := h.pairs src dest
  refine ⟨n, held, hpair.congr ?_ rfl ?_ ?_ rfl fun v => ?_⟩
  · rw [hinfo]
  · rw [hinfo]
  · rw [hinfo]
  · congr 1
    simp only [Network.yielded, setPair_apply]
    by_cases hdest : dest = e
    · subst hdest
      rw [update_self]
      by_cases hv : v = vn
      · subst hv
        rw [if_pos ⟨rfl, rfl⟩, append_assoc, hfront]
      · rw [if_neg (fun hand => hv hand.2), hrest v hv]
    · rw [if_neg (fun hand => hdest hand.1), update_of_ne hdest]

theorem Ordered.afterSetNotify (h : Ordered s) :
    Ordered { s with
      endpoints := update s.endpoints e
        { s.endpoints e with receiveFunctor := true } } := by
  have hsame : ∀ k, (update s.endpoints e
        { s.endpoints e with receiveFunctor := true } k).reorder_info =
        (s.endpoints k).reorder_info ∧
      (update s.endpoints e { s.endpoints e with receiveFunctor := true } k).input_buf =
        (s.endpoints k).input_buf := by
    intro k
    by_cases hk : k = e
    · subst hk
      simp
    · simp [hk]
  refine ⟨fun src dest => ?_⟩
  obtain ⟨n, held, hpair⟩ := h.pairs src dest
  refine ⟨n, held, hpair.congr ?_ rfl ?_ ?_ rfl fun v => ?_⟩
  · rw [(hsame _).1]
  · rw [(hsame _).1]
  · rw [(hsame _).1]
  · simp only [Network.yielded, (hsame _).2]

/--
The requests that follow the missing one without a gap were sent on the virtual
network on which it arrives.
-/
def FollowsOn (vn : Nat) : UInt32 → List (ReorderRequest α) → Prop
  | _, [] => True
  | seq, r :: queue => r.seq = seq → r.vn = vn ∧ FollowsOn vn (seq + 1) queue

instance instDecidableFollowsOn (vn : Nat) :
    ∀ (seq : UInt32) (queue : List (ReorderRequest α)), Decidable (FollowsOn vn seq queue)
  | _, [] => inferInstanceAs (Decidable True)
  | seq, _ :: queue =>
    have := instDecidableFollowsOn vn (seq + 1) queue
    inferInstanceAs (Decidable (_ → _ ∧ _))

theorem release_vn {seq last : UInt32} {queue released rest : List (ReorderRequest α)}
    (hfollows : FollowsOn vn seq queue)
    (hrun : ReorderLinkControl.release queue seq = some (released, last, rest)) :
    ∀ r ∈ released, r.vn = vn := by
  induction queue generalizing seq released with
  | nil => cases hrun
  | cons p queue ih =>
    rw [ReorderLinkControl.release] at hrun
    split at hrun
    · rename_i hseq
      obtain ⟨hvn, hfollows⟩ := hfollows hseq
      obtain ⟨⟨released', tail⟩, hrest, heq⟩ := map_eq_some_iff.mp hrun
      cases heq
      intro r hr
      rcases mem_cons.mp hr with rfl | hr
      · exact hvn
      · exact ih hfollows hrest r hr
    · cases hrun
      exact nofun

theorem PairOrdered.take (h : PairOrdered s src dest n held) (haway : s.away src dest = r ::ₘ away)
    (hseq : r.seq = ((s.endpoints dest).reorder_info src).recv) :
    ∃ released last rest, ReorderLinkControl.release ((s.endpoints dest).reorder_info src).queue
        (((s.endpoints dest).reorder_info src).recv + 1) = some (released, last, queueOf rest) ∧
      Reassembly seqTags number (s.sent src dest) (n + 1 + released.length) away last rest ∧
      rest.find? last = none ∧ (s.sent src dest).take (n + 1 + released.length) =
        (s.sent src dest).take n ++ r :: released := by
  have hre := h.reassembly
  rw [haway] at hre
  have hn : number r = n := by
    rw [number, hseq]
    exact (reassembly_room hre h.room).1
  have hnext := hre.take_away hn
  have hdrop := hre.drop_eq_cons (.inl (Multiset.mem_cons_self r away)) hn
  have hspec := hnext.release_spec le_rfl rfl
  have hrelease := release_eq hnext h.room
  refine ⟨_, _, _, ?_, hspec.2.1, hspec.2.2, ?_⟩
  · rw [h.queue_eq]
    exact hrelease
  · have hsplit : (s.sent src dest).drop n =
        (r :: (ReorderBuffer.release seqTags.next held.entries.length
          (seqTags.next ((s.endpoints dest).reorder_info src).recv) held).1) ++
        (s.sent src dest).drop (n + 1 + (ReorderBuffer.release seqTags.next
          held.entries.length (seqTags.next ((s.endpoints dest).reorder_info src).recv)
          held).1.length) := by
      rw [hdrop, hspec.1]
      rfl
    rw [add_assoc, take_add, hsplit]
    congr 1
    refine take_left' ?_
    rw [length_cons, add_comm]

theorem PairOrdered.wait {away : Multiset (ReorderRequest α)} (h : PairOrdered s src dest n held)
    (haway : s.away src dest = r ::ₘ away)
    (hseq : r.seq ≠ ((s.endpoints dest).reorder_info src).recv) :
    pushQueue ((s.endpoints dest).reorder_info src).queue r = queueOf (held.insert r.seq r) ∧
      Reassembly seqTags number (s.sent src dest) n away
        ((s.endpoints dest).reorder_info src).recv (held.insert r.seq r) ∧
      (held.insert r.seq r).find? ((s.endpoints dest).reorder_info src).recv = none := by
  have hre := h.reassembly
  rw [haway] at hre
  have hroom := h.room
  have hget := (hre.mem_pending (.inl (Multiset.mem_cons_self r away))).2
  have hlt : number r < (s.sent src dest).length := (List.getElem?_eq_some_iff.mp hget).1
  have htag : seqTags.tag (number r) = r.seq := UInt32.ofNat_toNat
  have hheld := hre.hold (show number r < n + seqTags.window by
    have hwindow : seqTags.window = 2 ^ 32 := rfl
    omega)
  have hfree : held.find? r.seq = none := by
    cases hfind : held.find? r.seq with
    | none => rfl
    | some q =>
      have hqmem : q ∈ ReorderBuffer.values held := ReorderBuffer.mem_values_iff.mpr ⟨_, hfind⟩
      have hqget := (hre.mem_pending (.inr hqmem)).2
      have hnumber : number q = number r := by
        have hkey := (keyed_of_reassembly hre hroom _ _ hfind).1
        rw [number, number, ← hkey]
      rw [hnumber, hget] at hqget
      have hnodup := hre.nodup_pending
      rw [Multiset.cons_add, Multiset.nodup_cons] at hnodup
      exact absurd (Multiset.mem_add.mpr (.inr (some.inj hqget ▸ hqmem)))
        hnodup.1
  rw [htag] at hheld
  refine ⟨?_, hheld, ?_⟩
  · rw [h.queue_eq]
    refine pushQueue_queueOf (keyed_of_reassembly hre hroom) hfree ?_
    rw [UInt32.lt_iff_toNat_lt]
    exact hlt.trans hroom
  · rw [OrderedMap.find?_insert_of_ne _ _ (Ne.symm hseq)]
    exact h.waiting

end Pairs

section Deliveries

variable [DecidableEq α] {s : Network α} {r : ReorderRequest α} {keep : Bool}

def Network.afterDeliver (s : Network α) (r : ReorderRequest α) (e : Endpoint α) : Network α :=
  { s with
    endpoints := update s.endpoints r.dest e
    inFlight := s.inFlight.erase r }

theorem away_erase {e : Endpoint α} (hr : r ∈ s.inFlight) (src dest : Nat) :
    s.away src dest = if r.src = src ∧ r.dest = dest then r ::ₘ (s.afterDeliver r e).away src dest
      else (s.afterDeliver r e).away src dest := by
  have hperm : (s.inFlight : Multiset (ReorderRequest α)) =
      r ::ₘ ((s.inFlight.erase r : List (ReorderRequest α)) : Multiset (ReorderRequest α)) :=
    Multiset.coe_eq_coe.mpr (perm_cons_erase hr)
  rw [Network.away, hperm, Multiset.filter_cons]
  split <;> rfl

variable {e : Endpoint α} {released queue : List (ReorderRequest α)} {last : UInt32}

theorem send_afterDeliver
    (hsend : ∀ k, (e.reorder_info k).send = ((s.endpoints r.dest).reorder_info k).send)
    (src dest : Nat) :
    (((s.afterDeliver r e).endpoints src).reorder_info dest).send =
      ((s.endpoints src).reorder_info dest).send := by
  by_cases hsrc : src = r.dest
  · subst hsrc
    simp only [Network.afterDeliver, update_self]
    exact hsend dest
  · simp [Network.afterDeliver, hsrc]

theorem PairOrdered.of_other {src dest n : Nat} {held : OrderedMap UInt32 (ReorderRequest α)}
    {arrived : List (ReorderRequest α)} (h : PairOrdered s src dest n held) (hr : r ∈ s.inFlight)
    (hother : ¬ (r.src = src ∧ r.dest = dest))
    (hsend : ∀ k, (e.reorder_info k).send = ((s.endpoints r.dest).reorder_info k).send)
    (hinfo : ∀ k, k ≠ r.src → e.reorder_info k = (s.endpoints r.dest).reorder_info k)
    (hbuf : ∀ v, e.input_buf v = if v = r.vn then (s.endpoints r.dest).input_buf v ++ arrived
      else (s.endpoints r.dest).input_buf v)
    (harrived : ∀ a ∈ arrived, a.src = r.src) :
    PairOrdered (s.afterDeliver r e) src dest n held := by
  have haway := @away_erase α _ s r e hr src dest
  rw [if_neg hother] at haway
  have hsame : ((s.afterDeliver r e).endpoints dest).reorder_info src =
      (s.endpoints dest).reorder_info src := by
    by_cases hdest : dest = r.dest
    · subst hdest
      have hne : src ≠ r.src := fun heq => hother ⟨heq.symm, rfl⟩
      simp only [Network.afterDeliver, update_self, hinfo src hne]
    · simp [Network.afterDeliver, hdest]
  refine h.congr (send_afterDeliver hsend src dest) rfl ?_ ?_ haway.symm fun v => ?_
  · rw [hsame]
  · rw [hsame]
  · by_cases hdest : dest = r.dest
    · subst hdest
      have hne : src ≠ r.src := fun heq => hother ⟨heq.symm, rfl⟩
      have hnone : arrived.filter (fun a => decide (a.src = src)) = [] :=
        filter_eq_nil_iff.mpr fun a ha => by
          rw [harrived a ha]
          simpa using Ne.symm hne
      simp only [Network.yielded, Network.afterDeliver, update_self, hbuf]
      split
      · rw [← append_assoc, filter_append, hnone, append_nil]
      · rfl
    · simp [Network.yielded, Network.afterDeliver, hdest]

/-- The endpoint after the expected request and those that follow it have been taken. -/
def Endpoint.taken (e : Endpoint α) (r : ReorderRequest α) (keep : Bool)
    (released : List (ReorderRequest α)) (last : UInt32) (queue : List (ReorderRequest α)) :
    Endpoint α where
  reorder_info := update e.reorder_info r.src
    { e.reorder_info r.src with recv := last, queue := queue }
  input_buf := update e.input_buf r.vn (e.input_buf r.vn ++ r :: released)
  receiveFunctor := e.receiveFunctor && keep

omit [DecidableEq α] in
theorem taken_send (k : Nat) :
    ((e.taken r keep released last queue).reorder_info k).send = (e.reorder_info k).send := by
  by_cases hk : k = r.src
  · subst hk
    simp [Endpoint.taken]
  · simp [Endpoint.taken, hk]

/-- The endpoint after a request has been put into the queue. -/
def Endpoint.waiting (e : Endpoint α) (r : ReorderRequest α) : Endpoint α :=
  { e with
    reorder_info := update e.reorder_info r.src
      { e.reorder_info r.src with queue := pushQueue (e.reorder_info r.src).queue r } }

omit [DecidableEq α] in
theorem waiting_send (k : Nat) : ((e.waiting r).reorder_info k).send = (e.reorder_info k).send := by
  by_cases hk : k = r.src
  · subst hk
    simp [Endpoint.waiting]
  · simp [Endpoint.waiting, hk]

omit [DecidableEq α] in
theorem handle_event_expected (hseq : r.seq = (e.reorder_info r.src).recv)
    (hrelease : release (e.reorder_info r.src).queue ((e.reorder_info r.src).recv + 1) =
      some (released, last, queue)) :
    e.handle_event r.vn r keep = some (e.taken r keep released last queue, if e.receiveFunctor then
          [⟨r.vn, (e.taken r keep released last queue).input_buf r.vn⟩]
        else []) := by
  rw [Endpoint.handle_event, if_pos hseq, hrelease]
  rfl

theorem Ordered.deliver_expected (h : Ordered s) (hr : r ∈ s.inFlight)
    (hseq : r.seq = ((s.endpoints r.dest).reorder_info r.src).recv) :
    ∃ e calls, (s.endpoints r.dest).handle_event r.vn r keep = some (e, calls) ∧
      (FollowsOn r.vn (((s.endpoints r.dest).reorder_info r.src).recv + 1)
          ((s.endpoints r.dest).reorder_info r.src).queue → Ordered (s.afterDeliver r e)) := by
  obtain ⟨n, held, hpair⟩ := h.pairs r.src r.dest
  have haway := fun e => @away_erase α _ s r e hr r.src r.dest
  simp only [and_self, if_true] at haway
  obtain ⟨released, last, rest, hrelease, hre, hwaiting, htake⟩ :=
    hpair.take (haway (s.endpoints 0)) hseq
  have hmem : ∀ a ∈ r :: released, a ∈ s.sent r.src r.dest := by
    intro a ha
    refine mem_of_mem_take (i := n + 1 + released.length) ?_
    rw [htake]
    exact mem_append_right _ ha
  refine ⟨(s.endpoints r.dest).taken r keep released last (queueOf rest), _,
    handle_event_expected hseq hrelease, fun hfollows => ⟨fun src dest => ?_⟩⟩
  · have hvn : ∀ a ∈ r :: released, a.vn = r.vn := by
      intro a ha
      rcases mem_cons.mp ha with rfl | ha
      · rfl
      · exact release_vn hfollows hrelease a ha
    by_cases hpairs : r.src = src ∧ r.dest = dest
    · obtain ⟨rfl, rfl⟩ := hpairs
      refine ⟨n + 1 + released.length, rest, ?_, hpair.room, hpair.origin, ?_, ?_, ?_, fun v => ?_⟩
      · rw [send_afterDeliver taken_send, hpair.send_eq]
        rfl
      · simp [Network.afterDeliver, Endpoint.taken]
      · simp only [Network.afterDeliver, Endpoint.taken, update_self]
        exact hre
      · simp only [Network.afterDeliver, Endpoint.taken, update_self]
        exact hwaiting
      · have hold := hpair.in_order v
        have hsrc : (r :: released).filter (fun a => decide (a.src = r.src)) =
            r :: released :=
          filter_eq_self.mpr fun a ha => by simpa using (hpair.origin a (hmem a ha)).1
        simp only [Network.yielded, Network.afterDeliver, Endpoint.taken, update_self] at hold ⊢
        rw [htake]
        by_cases hv : v = r.vn
        · subst hv
          have hall : (r :: released).filter (fun a => decide (a.vn = r.vn)) =
              r :: released :=
            filter_eq_self.mpr fun a ha => by simpa using hvn a ha
          rw [update_self, ← append_assoc, filter_append _ (r :: released),
            filter_append _ (r :: released), hsrc, hall, hold]
        · have hnone : (r :: released).filter (fun a => decide (a.vn = v)) = [] :=
            filter_eq_nil_iff.mpr fun a ha => by
              rw [hvn a ha]
              simpa using Ne.symm hv
          rw [update_of_ne hv, filter_append _ (r :: released), hnone, append_nil, hold]
    · obtain ⟨m, held', hpair'⟩ := h.pairs src dest
      refine ⟨m, held', hpair'.of_other hr hpairs taken_send (fun k hk => ?_) (fun v => ?_)
        fun a ha => (hpair.origin a (hmem a ha)).1⟩
      · simp [Endpoint.taken, hk]
      · by_cases hv : v = r.vn
        · subst hv
          simp [Endpoint.taken]
        · simp [Endpoint.taken, hv]

theorem Ordered.deliver_early (h : Ordered s) (hr : r ∈ s.inFlight)
    (hseq : r.seq ≠ ((s.endpoints r.dest).reorder_info r.src).recv) :
    ∃ e, (s.endpoints r.dest).handle_event r.vn r keep = some (e, []) ∧
      Ordered (s.afterDeliver r e) := by
  obtain ⟨n, held, hpair⟩ := h.pairs r.src r.dest
  have haway := fun e => @away_erase α _ s r e hr r.src r.dest
  simp only [and_self, if_true] at haway
  obtain ⟨hqueue, hre, hwaiting⟩ := hpair.wait (haway (s.endpoints 0)) hseq
  refine ⟨(s.endpoints r.dest).waiting r, by rw [Endpoint.handle_event, if_neg hseq]; rfl,
    ⟨fun src dest => ?_⟩⟩
  by_cases hpairs : r.src = src ∧ r.dest = dest
  · obtain ⟨rfl, rfl⟩ := hpairs
    refine ⟨n, held.insert r.seq r, ?_, hpair.room, hpair.origin, ?_, ?_, ?_, fun v => ?_⟩
    · rw [send_afterDeliver waiting_send, hpair.send_eq]
      rfl
    · simp only [Network.afterDeliver, Endpoint.waiting, update_self]
      exact hqueue
    · simp only [Network.afterDeliver, Endpoint.waiting, update_self]
      exact hre
    · simp only [Network.afterDeliver, Endpoint.waiting, update_self]
      exact hwaiting
    · have hold := hpair.in_order v
      simp only [Network.yielded, Network.afterDeliver, update_self] at hold ⊢
      exact hold
  · obtain ⟨m, held', hpair'⟩ := h.pairs src dest
    refine ⟨m, held', hpair'.of_other hr hpairs waiting_send (fun k hk => ?_) (fun v => ?_)
      (forall_mem_nil _)⟩
    · simp [Endpoint.waiting, hk]
    · simp [Endpoint.waiting]

end Deliveries

section Runs

variable [DecidableEq α] {s t : Network α} {vns : Nat}

/-- What endpoints can receive, and that they are told of it. -/
structure Restored (s : Network α) : Prop where
  in_order : ∀ src dest vn, (s.yielded dest vn).filter (fun r => r.src = src) <+:
    (s.sent src dest).filter (fun r => r.vn = vn)
  complete : ∀ src dest i r, (s.sent src dest)[i]? = some r →
    (∀ r' ∈ (s.sent src dest).take (i + 1), r' ∉ s.inFlight) → r ∈ s.yielded dest r.vn
  reads : ∀ r ∈ s.inFlight, ∀ keep,
    ((s.endpoints r.dest).handle_event r.vn r keep).isSome = true
  announced : ∀ r ∈ s.inFlight, ∀ keep e calls,
    (s.endpoints r.dest).handle_event r.vn r keep = some (e, calls) →
    (s.endpoints r.dest).receiveFunctor = true →
    ∀ vn, e.input_buf vn ≠ (s.endpoints r.dest).input_buf vn →
      ∃ c ∈ calls, c.vn = vn ∧ c.waiting = e.input_buf vn

omit [DecidableEq α] in
theorem handle_event_announces {e e' : Endpoint α} {vn v : Nat} {keep : Bool}
    {calls : List (Call α)} (hrun : e.handle_event vn r keep = some (e', calls))
    (hfunctor : e.receiveFunctor = true) (hchange : e'.input_buf v ≠ e.input_buf v) :
    ∃ c ∈ calls, c.vn = v ∧ c.waiting = e'.input_buf v := by
  rw [Endpoint.handle_event] at hrun
  split at hrun
  · obtain ⟨released, -, heq⟩ := map_eq_some_iff.mp hrun
    cases heq
    have hv : v = vn := by
      by_contra hne
      exact hchange (update_of_ne hne _ _)
    subst hv
    exact ⟨_, mem_singleton_self _, rfl, rfl⟩
  · cases hrun
    exact absurd rfl hchange

theorem Ordered.restored (h : Ordered s) : Restored s := by
  refine ⟨fun src dest vn => ?_, fun src dest i r hget haway => ?_, fun r hr keep => ?_,
    fun r _ keep e calls hrun hfunctor vn hchange => handle_event_announces hrun hfunctor hchange⟩
  · obtain ⟨n, held, hpair⟩ := h.pairs src dest
    rw [hpair.in_order]
    exact List.IsPrefix.filter _ <| take_prefix n _
  · obtain ⟨n, held, hpair⟩ := h.pairs src dest
    have hlt : i < n := by
      by_contra hge
      have hdrop : r ∈ (s.sent src dest).drop n := by
        refine mem_iff_getElem?.mpr ⟨i - n, ?_⟩
        rw [getElem?_drop, Nat.add_sub_cancel' (Nat.not_lt.mp hge), hget]
      obtain ⟨q, hq, hqn⟩ := hpair.reassembly.first_missing_away hpair.waiting hdrop
      have hqget := (hpair.reassembly.mem_pending (.inl hq)).2
      rw [hqn] at hqget
      have hqtake : q ∈ (s.sent src dest).take (i + 1) := by
        refine mem_iff_getElem?.mpr ⟨n, ?_⟩
        rw [getElem?_take_of_lt (by omega), hqget]
      exact haway q hqtake (Multiset.mem_coe.mp (Multiset.mem_filter.mp hq).1)
    have hmem : r ∈ ((s.sent src dest).take n).filter (fun p => decide (p.vn = r.vn)) := by
      refine mem_filter.mpr ⟨mem_iff_getElem?.mpr ⟨i, ?_⟩, by simp⟩
      rw [getElem?_take_of_lt hlt, hget]
    rw [← hpair.in_order] at hmem
    exact (mem_filter.mp hmem).1
  · by_cases hseq : r.seq = ((s.endpoints r.dest).reorder_info r.src).recv
    · obtain ⟨e, calls, hrun, -⟩ := @Ordered.deliver_expected α _ s r keep h hr hseq
      rw [hrun]
      rfl
    · obtain ⟨e, hrun, -⟩ := @Ordered.deliver_early α _ s r keep h hr hseq
      rw [hrun]
      rfl

/--
Numbers are left for what is sent, and requests that a missing one holds up were
sent on its virtual network.
-/
def HeldOnOwn (vns : Nat) (s : Network α) : Op α → Prop
  | .send req vn space => vn < vns → space = true →
      ((s.endpoints req.src).reorder_info req.dest).send < 0xfffffffe
  | .deliver r _ => r.seq = ((s.endpoints r.dest).reorder_info r.src).recv →
      FollowsOn r.vn (((s.endpoints r.dest).reorder_info r.src).recv + 1)
        ((s.endpoints r.dest).reorder_info r.src).queue
  | _ => True

instance instDecidableHeldOnOwn (vns : Nat) (s : Network α) : ∀ op, Decidable (HeldOnOwn vns s op)
  | .send _ _ _ => inferInstanceAs (Decidable (_ → _ → _))
  | .deliver _ _ => inferInstanceAs (Decidable (_ → _))
  | .recv _ _ | .setNotifyOnReceive _ => inferInstanceAs (Decidable True)

/-- A step that holds requests on their own network keeps the order. -/
theorem ordered_step {op : Op α} (h : Ordered s) (hheld : HeldOnOwn vns s op)
    (hstep : s.step vns op = some t) :
    Ordered t := by
  cases op with
  | send req vn space =>
    rw [Network.step] at hstep
    split at hstep
    · cases hstep
      exact h
    · rename_i haccepted
      obtain ⟨hvn, hspace⟩ := not_or.mp haccepted
      cases hstep
      exact h.afterSend (hheld (Nat.not_le.mp hvn) (Bool.not_eq_false _ ▸ hspace))
  | deliver r keep =>
    rw [Network.step] at hstep
    split at hstep
    · rename_i hr
      obtain ⟨⟨e, calls⟩, hrun, rfl⟩ := map_eq_some_iff.mp hstep
      by_cases hseq : r.seq = ((s.endpoints r.dest).reorder_info r.src).recv
      · obtain ⟨e', calls', hrun', hordered⟩ := @Ordered.deliver_expected α _ s r keep h hr hseq
        obtain ⟨rfl, -⟩ := Prod.mk.inj (some.inj (hrun'.symm.trans hrun))
        exact hordered (hheld hseq)
      · obtain ⟨e', hrun', hordered⟩ := @Ordered.deliver_early α _ s r keep h hr hseq
        obtain ⟨rfl, -⟩ := Prod.mk.inj (some.inj (hrun'.symm.trans hrun))
        exact hordered
    · cases hstep
  | recv e vn =>
    cases hstep
    exact h.afterRecv
  | setNotifyOnReceive e =>
    cases hstep
    exact h.afterSetNotify

omit [DecidableEq α] in
theorem ordered_initial : Ordered (Network.initial : Network α) := by
  refine ⟨fun src dest => ⟨0, .empty, rfl, show 0 < 2 ^ 32 - 1 by decide, nofun, rfl, ?_, rfl,
    fun _ => rfl⟩⟩
  exact ⟨rfl, le_rfl, rfl, rfl, nofun, nofun⟩

/-- Order is restored in every run whose requests are held up on their own networks. -/
theorem reorder_restores_order (vns : Nat) {ops : List (Op α)}
    (hheld : StepsMeet (Network.step vns) (HeldOnOwn vns) (Network.initial : Network α) ops) :
    Throughout (Network.step vns) Restored (Network.initial : Network α) ops :=
  (throughout_of_stepsMeet (fun _ _ _ h hok hstep => ordered_step h hok hstep)
    ordered_initial hheld).imp fun _ h => h.restored

/-- The request of endpoint 0 for endpoint 1 with this number and network. -/
def zeroToOne (seq : UInt32) (vn : Nat) : ReorderRequest Nat := ⟨1, 0, seq, vn, none⟩

theorem reorder_restores_order_one_network :
    Throughout (Network.step 1) Restored (Network.initial : Network Nat)
      [.setNotifyOnReceive 1, .send ⟨1, 0, none⟩ 0 true, .send ⟨1, 0, none⟩ 0 true,
        .deliver (zeroToOne 1 0) true, .deliver (zeroToOne 0 0) true, .recv 1 0] :=
  reorder_restores_order 1 (by decide)

/-- A request that waited is put into the buffer of another virtual network. -/
theorem not_restored_two_networks :
    ∃ t, runOps (Network.step 2) (Network.initial : Network Nat)
        [.send ⟨1, 0, none⟩ 0 true, .send ⟨1, 0, none⟩ 1 true,
          .deliver (zeroToOne 1 1) true, .deliver (zeroToOne 0 0) true] = some t ∧
      ¬ Restored t := by
  refine ⟨_, rfl, fun h => ?_⟩
  have hprefix := h.in_order 0 1 0
  revert hprefix
  decide

end Runs

end SstElements.Merlin.ReorderLinkControl
