import SstElements.Library.Transition
import SstElements.Merlin.CongestionManagement

/-!
# The books of congestion management

The counters of the streams, the sums over the active ones and the queue of
expiration times fit the packets that are outstanding, as long as no small
packet leaves while its source is in the map and no stream gets more time in
the queue than one behind it.
-/

namespace SstElements.Merlin.CongestionManagement

open Library List Option

section Streams

variable (cfg : Config) (out : List Packet)

def streamPackets (src : Nat) : List Packet :=
  out.filter (fun ev => ev.src = src && cfg.cm_pktsize_threshold ≤ ev.size_in_bits)

def streamCount (src : Nat) : Int := (streamPackets cfg out src).length

def streamFlits (src : Nat) : Int :=
  ((streamPackets cfg out src).map (fun ev => (ev.flits : Int))).sum

variable {cfg out} {ev : Packet} {src : Nat}

theorem streamCount_cons (hlarge : cfg.cm_pktsize_threshold ≤ ev.size_in_bits) :
    streamCount cfg (ev :: out) src =
      if src = ev.src then streamCount cfg out src + 1 else streamCount cfg out src := by
  unfold streamCount streamPackets
  by_cases hsrc : ev.src = src
  · simp [hsrc, hlarge]
  · simp [hsrc, Ne.symm hsrc]

theorem streamFlits_cons (hlarge : cfg.cm_pktsize_threshold ≤ ev.size_in_bits) :
    streamFlits cfg (ev :: out) src = if src = ev.src then streamFlits cfg out src + ev.flits
      else streamFlits cfg out src := by
  unfold streamFlits streamPackets
  by_cases hsrc : ev.src = src
  · simp [hsrc, hlarge, add_comm]
  · simp [hsrc, Ne.symm hsrc]

theorem streamPackets_cons_small (hsmall : ¬ cfg.cm_pktsize_threshold ≤ ev.size_in_bits) :
    streamPackets cfg (ev :: out) src = streamPackets cfg out src := by
  simp [streamPackets, hsmall]

theorem streamFlits_eq_zero (h : streamCount cfg out src = 0) : streamFlits cfg out src = 0 := by
  have hnil : streamPackets cfg out src = [] := length_eq_zero_iff.mp (Int.ofNat_eq_zero.mp h)
  rw [streamFlits, hnil]
  rfl

end Streams

variable {src : Nat}

section Books

variable (cfg : Config)

/-- The counters of the streams, and that a source that is not in the map has none. -/
structure Tallied (out : List Packet) (m : OrderedMap Nat CongestionInfo) : Prop where
  count : ∀ src info, m.find? src = some info → info.count = streamCount cfg out src
  flits : ∀ src info, m.find? src = some info → info.flit_count = streamFlits cfg out src
  absent : ∀ src, m.find? src = none → streamCount cfg out src = 0

def IsActive (m : OrderedMap Nat CongestionInfo) (src : Nat) : Prop :=
  ∃ info, m.find? src = some info ∧ info.active = true

/-- The queue holds the active sources as a heap of expiration times. -/
structure Queued (m : OrderedMap Nat CongestionInfo) (q : List Nat) : Prop where
  nodup : q.Nodup
  mem_iff : ∀ src, src ∈ q ↔ IsActive m src
  heap : IsHeap (expiration m) q

/-- What an entry adds to the number of active streams. -/
def activeOne (info : CongestionInfo) : Int := if info.active then 1 else 0

def activeFlits (info : CongestionInfo) : Int := if info.active then info.flit_count else 0

/-- The books of a port, with a number of expired streams still in its incast. -/
structure Booked (out : List Packet) (expired : Nat) (s : PortControl) : Prop where
  tallied : Tallied cfg out s.congestion_map
  queued : Queued s.congestion_map s.expiration_queue
  incast : s.current_incast = OrderedMap.sumOf activeOne s.congestion_map + expired
  incast_flits : s.total_incast_flits = OrderedMap.sumOf activeFlits s.congestion_map

variable {cfg} {out : List Packet} {m m' : OrderedMap Nat CongestionInfo} {q : List Nat}
variable {H : HeapOps Nat Nat}
variable {src : Nat}

theorem expiration_congr (h : m'.find? src = m.find? src) :
    expiration m' src = expiration m src := by
  rw [expiration, expiration, h]

theorem isActive_congr (h : m'.find? src = m.find? src) : IsActive m' src ↔ IsActive m src := by
  rw [IsActive, IsActive, h]

theorem Queued.pop (h : Queued m (src :: q)) (hothers : ∀ k, k ≠ src → m'.find? k = m.find? k)
    (hinactive : ¬ IsActive m' src) :
    Queued m' (H.pop (expiration m) (src :: q)) := by
  have hperm := H.pop_perm (expiration m) src q h.heap
  obtain ⟨hsrc, hnodup⟩ := nodup_cons.mp h.nodup
  have hne : ∀ k ∈ q, k ≠ src := fun k hk heq => hsrc (heq ▸ hk)
  refine ⟨hperm.nodup_iff.mpr hnodup, fun k => ?_, ?_⟩
  · rw [hperm.mem_iff]
    by_cases hk : k = src
    · subst hk
      exact iff_of_false hsrc hinactive
    · rw [isActive_congr (hothers k hk), ← h.mem_iff, mem_cons]
      simp [hk]
  · refine isHeap_congr (fun k hk => ?_) (H.pop_heap (expiration m) src q h.heap)
    exact expiration_congr (hothers k (hne k (hperm.mem_iff.mp hk)))

section

variable (h : Queued m q) (hothers : ∀ k, k ≠ src → m'.find? k = m.find? k)
variable (hinactive : ¬ IsActive m src)
include h hothers hinactive

theorem Queued.isHeap_of_others : IsHeap (expiration m') q := by
  have hsrc : src ∉ q := fun hmem => hinactive ((h.mem_iff src).mp hmem)
  exact isHeap_congr (fun k hk => expiration_congr (hothers k fun heq => hsrc (heq ▸ hk))) h.heap

theorem Queued.push (hactive : IsActive m' src) : Queued m' (H.push (expiration m') q src) := by
  have hsrc : src ∉ q := fun hmem => hinactive ((h.mem_iff src).mp hmem)
  have hheap : IsHeap (expiration m') q := h.isHeap_of_others hothers hinactive
  have hperm := H.push_perm (expiration m') q src hheap
  refine ⟨hperm.nodup_iff.mpr (nodup_cons.mpr ⟨hsrc, h.nodup⟩), fun k => ?_,
    H.push_heap (expiration m') q src hheap⟩
  rw [hperm.mem_iff, mem_cons]
  by_cases hk : k = src
  · subst hk
    exact iff_of_true (.inl rfl) hactive
  · rw [isActive_congr (hothers k hk), ← h.mem_iff]
    simp [hk]

end

theorem not_isActive_erase : ¬ IsActive (m.erase src) src := by
  rintro ⟨info, hi, -⟩
  rw [OrderedMap.find?_erase_self] at hi
  cases hi

theorem Queued.pop_erase (h : Queued m (src :: q)) :
    Queued (m.erase src) (H.pop (expiration m) (src :: q)) :=
  h.pop (fun _ hk => OrderedMap.find?_erase_of_ne _ hk) not_isActive_erase

theorem Queued.of_order (h : Queued m q) (hactive : ∀ src, IsActive m' src ↔ IsActive m src)
    (horder : ∀ a ∈ q, ∀ b ∈ q, expiration m b ≤ expiration m a →
      expiration m' b ≤ expiration m' a) :
    Queued m' q :=
  ⟨h.nodup, fun src => (h.mem_iff src).trans (hactive src).symm, h.heap.of_order horder⟩

theorem Tallied.insert {info : CongestionInfo} (h : Tallied cfg out m)
    (hcount : info.count = streamCount cfg out src)
    (hflits : info.flit_count = streamFlits cfg out src) :
    Tallied cfg out (m.insert src info) := by
  refine ⟨fun k i hi => ?_, fun k i hi => ?_, fun k hk => ?_⟩
  · rw [OrderedMap.find?_insert] at hi
    split at hi
    · rename_i hk
      rw [hk, ← some.inj hi, hcount]
    · exact h.count k i hi
  · rw [OrderedMap.find?_insert] at hi
    split at hi
    · rename_i hk
      rw [hk, ← some.inj hi, hflits]
    · exact h.flits k i hi
  · rw [OrderedMap.find?_insert] at hk
    split at hk
    · cases hk
    · exact h.absent k hk

theorem Tallied.erase (h : Tallied cfg out m) (hcount : streamCount cfg out src = 0) :
    Tallied cfg out (m.erase src) := by
  refine ⟨fun k i hi => ?_, fun k i hi => ?_, fun k hk => ?_⟩
  · rw [OrderedMap.find?_erase] at hi
    split at hi
    · cases hi
    · exact h.count k i hi
  · rw [OrderedMap.find?_erase] at hi
    split at hi
    · cases hi
    · exact h.flits k i hi
  · rw [OrderedMap.find?_erase] at hk
    split at hk
    · rename_i heq
      rw [heq, hcount]
    · exact h.absent k hk

theorem Tallied.getD_new (h : Tallied cfg out m) :
    ((m.find? src).getD .new).count = streamCount cfg out src ∧
      ((m.find? src).getD .new).flit_count = streamFlits cfg out src := by
  cases hfind : m.find? src with
  | some info => exact ⟨h.count src info hfind, h.flits src info hfind⟩
  | none =>
    have hzero := h.absent src hfind
    exact ⟨hzero.symm, (streamFlits_eq_zero hzero).symm⟩

end Books

section Arrivals

variable {cfg : Config} {out : List Packet} {s : PortControl} {ev : Packet} {now : Nat}
variable {H : HeapOps Nat Nat}
variable {m : OrderedMap Nat CongestionInfo} {k : Nat} {s' : PortControl}
variable {g : CongestionInfo → CongestionInfo}

theorem sumOf_insert_getD {f : CongestionInfo → Int} (hnew : f .new = 0) (src : Nat)
    (info : CongestionInfo) :
    OrderedMap.sumOf f (m.insert src info) =
      OrderedMap.sumOf f m - f ((m.find? src).getD .new) + f info := by
  cases hfind : m.find? src with
  | some old => exact OrderedMap.sumOf_insert f info hfind
  | none =>
    rw [OrderedMap.sumOf_insert_new f info hfind, getD_none, hnew, sub_zero]

variable {m : OrderedMap Nat CongestionInfo}

theorem isActive_iff_getD :
    IsActive m src ↔ ((m.find? src).getD .new).active = true := by
  cases hfind : m.find? src with
  | some info => simp [IsActive, hfind]
  | none => simp [IsActive, hfind, CongestionInfo.new]

variable {info : CongestionInfo}

theorem isActive_insert_self :
    IsActive (m.insert src info) src ↔ info.active = true := by
  simp [IsActive]

theorem Booked.activate (h : Booked cfg out 0 s)
    (hinfo : (s.congestion_map.find? src).getD .new = info) (hinactive : info.active = false) :
    Booked cfg out 0 (activate H cfg now s src info) := by
  obtain ⟨hcount, hflits⟩ := @Tallied.getD_new cfg out s.congestion_map src h.tallied
  rw [hinfo] at hcount hflits
  have hold : ¬ IsActive s.congestion_map src := by
    rw [isActive_iff_getD, hinfo, hinactive]
    exact Bool.false_ne_true
  unfold CongestionManagement.activate
  refine ⟨h.tallied.insert hcount hflits, ?_, ?_, ?_⟩
  · exact h.queued.push (fun k hk => OrderedMap.find?_insert_of_ne _ _ hk) hold
      (isActive_insert_self.mpr rfl)
  · rw [sumOf_insert_getD rfl, hinfo]
    simp only [activeOne, hinactive, h.incast]
    simp
  · rw [sumOf_insert_getD rfl, hinfo]
    simp only [activeFlits, hinactive, h.incast_flits]
    simp

theorem Booked.record (h : Booked cfg out 0 s) (hactive : IsActive s.congestion_map ev.src)
    (hlarge : cfg.cm_pktsize_threshold ≤ ev.size_in_bits) :
    Booked cfg (ev :: out) 0 (record now s ev) := by
  obtain ⟨info, hfind, hinfo⟩ := hactive
  have hget : (s.congestion_map.find? ev.src).getD .new = info := by rw [hfind]; rfl
  have hcount := h.tallied.count ev.src info hfind
  have hflits := h.tallied.flits ev.src info hfind
  unfold CongestionManagement.record
  rw [hget]
  refine ⟨⟨fun k i hi => ?_, fun k i hi => ?_, fun k hk => ?_⟩, ?_, ?_, ?_⟩
  · rw [streamCount_cons hlarge]
    rw [OrderedMap.find?_insert] at hi
    split at hi
    · rename_i hk
      rw [if_pos hk, ← some.inj hi, hk, hcount]
    · rename_i hk
      rw [if_neg hk, h.tallied.count k i hi]
  · rw [streamFlits_cons hlarge]
    rw [OrderedMap.find?_insert] at hi
    split at hi
    · rename_i hk
      rw [if_pos hk, ← some.inj hi, hk, hflits]
    · rename_i hk
      rw [if_neg hk, h.tallied.flits k i hi]
  · rw [streamCount_cons hlarge]
    rw [OrderedMap.find?_insert] at hk
    split at hk
    · cases hk
    · rename_i hne
      rw [if_neg hne, h.tallied.absent k hk]
  · have hsame : ∀ i : CongestionInfo, i.active = true →
        i.expiration_time = info.expiration_time → ∀ k,
        (IsActive (s.congestion_map.insert ev.src i) k ↔ IsActive s.congestion_map k) ∧
        expiration (s.congestion_map.insert ev.src i) k = expiration s.congestion_map k := by
      intro i hi htime k
      by_cases hk : k = ev.src
      · subst hk
        refine ⟨iff_of_true (isActive_insert_self.mpr hi) ⟨info, hfind, hinfo⟩, ?_⟩
        simp [expiration, hfind, htime]
      · have heq := OrderedMap.find?_insert_of_ne s.congestion_map i hk
        exact ⟨isActive_congr heq, expiration_congr heq⟩
    refine h.queued.of_order (fun k => (hsame _ (by exact hinfo) (by rfl) k).1)
      fun a _ b _ hle => ?_
    rw [(hsame _ (by exact hinfo) (by rfl) a).2, (hsame _ (by exact hinfo) (by rfl) b).2]
    exact hle
  · rw [sumOf_insert_getD rfl, hget]
    simp only [activeOne, hinfo, h.incast]
    simp
  · rw [sumOf_insert_getD rfl, hget]
    simp only [activeFlits, hinfo, h.incast_flits, if_true]
    omega

theorem Booked.of_same (h : Booked cfg out k s) (hmap : s'.congestion_map = s.congestion_map)
    (hqueue : s'.expiration_queue = s.expiration_queue)
    (hincast : s'.current_incast = s.current_incast)
    (hflits : s'.total_incast_flits = s.total_incast_flits) :
    Booked cfg out k s' := by
  refine ⟨?_, ?_, ?_, ?_⟩
  · rw [hmap]
    exact h.tallied
  · rw [hmap, hqueue]
    exact h.queued
  · rw [hmap, hincast]
    exact h.incast
  · rw [hmap, hflits]
    exact h.incast_flits

theorem Booked.arrive (h : Booked cfg out 0 s)
    (hlarge : cfg.cm_pktsize_threshold ≤ ev.size_in_bits) :
    Booked cfg (ev :: out) 0 (arrive H cfg now s ev) := by
  have hflits : Booked cfg out 0
      { s with total_flits_incoming := s.total_flits_incoming + ev.flits } :=
    h.of_same rfl rfl rfl rfl
  unfold CongestionManagement.arrive
  dsimp only
  split
  · rename_i hactive
    exact hflits.record (isActive_iff_getD.mpr hactive) hlarge
  · rename_i hinactive
    exact (hflits.activate rfl (Bool.eq_false_of_not_eq_true hinactive)).record
      (isActive_insert_self.mpr rfl) hlarge

theorem Booked.turnOn (h : Booked cfg out 0 s) : Booked cfg out 0 (turnOn cfg s) := by
  unfold CongestionManagement.turnOn
  split
  · exact h.of_same rfl rfl rfl rfl
  · exact h

/-- A stream that is throttled for the first time gets more time. -/
def Raised (s : PortControl) (info : CongestionInfo) : Prop :=
  needsThrottle s info = true ∧ info.throttle = 0
deriving Decidable

/-- No stream that gets more time passes another one in the queue, or the end of the clock. -/
def KeepsOrder (cfg : Config) (s : PortControl) : Prop :=
  ∀ a ∈ s.congestion_map.entries, a.2.active = true → Raised s a.2 →
    a.2.expiration_time + throttleTime cfg s < 2 ^ 64 ∧
      ∀ b ∈ s.congestion_map.entries, b.2.active = true → ¬ Raised s b.2 →
        b.2.expiration_time < a.2.expiration_time ∨
          a.2.expiration_time + throttleTime cfg s ≤ b.2.expiration_time
deriving Decidable

theorem throttleInfo_eq :
    (throttleInfo cfg s info).count = info.count ∧
      (throttleInfo cfg s info).flit_count = info.flit_count ∧
      (throttleInfo cfg s info).active = info.active ∧ (throttleInfo cfg s info).expiration_time =
        if Raised s info then (info.expiration_time + throttleTime cfg s) % 2 ^ 64
        else info.expiration_time := by
  unfold throttleInfo Raised
  by_cases hneeds : needsThrottle s info = true
  · simp [hneeds]
  · simp [hneeds]

theorem Tallied.mapValues (h : Tallied cfg out m) (hcount : ∀ info, (g info).count = info.count)
    (hflits : ∀ info, (g info).flit_count = info.flit_count) :
    Tallied cfg out (m.mapValues g) := by
  refine ⟨fun src info hi => ?_, fun src info hi => ?_, fun src hnone => ?_⟩
  · rw [OrderedMap.find?_mapValues] at hi
    obtain ⟨old, hold, rfl⟩ := map_eq_some_iff.mp hi
    rw [hcount, h.count src old hold]
  · rw [OrderedMap.find?_mapValues] at hi
    obtain ⟨old, hold, rfl⟩ := map_eq_some_iff.mp hi
    rw [hflits, h.flits src old hold]
  · rw [OrderedMap.find?_mapValues, map_eq_none_iff] at hnone
    exact h.absent src hnone

theorem isActive_mapValues (hactive : ∀ info, (g info).active = info.active) (src : Nat) :
    IsActive (m.mapValues g) src ↔ IsActive m src := by
  simp only [IsActive, OrderedMap.find?_mapValues, map_eq_some_iff]
  constructor
  · rintro ⟨_, ⟨info, hfind, rfl⟩, hinfo⟩
    exact ⟨info, hfind, (hactive info).symm.trans hinfo⟩
  · rintro ⟨info, hfind, hinfo⟩
    exact ⟨g info, ⟨info, hfind, rfl⟩, (hactive info).trans hinfo⟩

theorem Booked.mapValues (h : Booked cfg out k s) (hcount : ∀ info, (g info).count = info.count)
    (hflits : ∀ info, (g info).flit_count = info.flit_count)
    (hactive : ∀ info, (g info).active = info.active)
    (horder : ∀ a b ainfo binfo, s.congestion_map.find? a = some ainfo →
      s.congestion_map.find? b = some binfo → ainfo.active = true → binfo.active = true →
      binfo.expiration_time ≤ ainfo.expiration_time →
      (g binfo).expiration_time ≤ (g ainfo).expiration_time)
    (hs' : s' = { s with congestion_map := s.congestion_map.mapValues g }) :
    Booked cfg out k s' := by
  subst hs'
  refine ⟨h.tallied.mapValues hcount hflits,
    h.queued.of_order (isActive_mapValues hactive) fun a ha b hb hle => ?_, ?_, ?_⟩
  · obtain ⟨ainfo, hainfo, haactive⟩ := (h.queued.mem_iff a).mp ha
    obtain ⟨binfo, hbinfo, hbactive⟩ := (h.queued.mem_iff b).mp hb
    simp only [expiration, hainfo, hbinfo] at hle
    simp only [expiration, OrderedMap.find?_mapValues, hainfo, hbinfo, map_some]
    exact horder a b ainfo binfo hainfo hbinfo haactive hbactive hle
  · rw [OrderedMap.sumOf_mapValues]
    simp only [activeOne, hactive]
    exact h.incast
  · rw [OrderedMap.sumOf_mapValues]
    simp only [activeFlits, hactive, hflits]
    exact h.incast_flits

theorem Booked.throttleAll (h : Booked cfg out 0 s) (horder : KeepsOrder cfg s) :
    Booked cfg out 0 (throttleAll cfg s).1 := by
  refine h.mapValues (fun _ => throttleInfo_eq.1) (fun _ => throttleInfo_eq.2.1)
    (fun _ => throttleInfo_eq.2.2.1) (fun a b ainfo binfo ha hb hainfo hbinfo hle => ?_) rfl
  rw [(@throttleInfo_eq cfg s ainfo).2.2.2, (@throttleInfo_eq cfg s binfo).2.2.2]
  have ha' := (OrderedMap.mem_entries_iff _ a ainfo).mpr ha
  have hb' := (OrderedMap.mem_entries_iff _ b binfo).mpr hb
  by_cases hraised : Raised s binfo
  · obtain ⟨hclock, hothers⟩ := horder _ hb' hbinfo hraised
    rw [if_pos hraised, Nat.mod_eq_of_lt hclock]
    by_cases hraised' : Raised s ainfo
    · rw [if_pos hraised', Nat.mod_eq_of_lt (horder _ ha' hainfo hraised').1]
      exact Nat.add_le_add_right hle _
    · rw [if_neg hraised']
      rcases hothers _ ha' hainfo hraised' with hlt | hle'
      · exact absurd hle (Nat.not_le.mpr hlt)
      · exact hle'
  · rw [if_neg hraised]
    split
    · rename_i hraised'
      rw [Nat.mod_eq_of_lt (horder _ ha' hainfo hraised').1]
      exact hle.trans (Nat.le_add_right _ _)
    · exact hle

/-- The packet is one that the report handles without changing the order of the queue. -/
def ReportInOrder (H : HeapOps Nat Nat) (cfg : Config) (now : Nat) (s : PortControl)
    (ev : Packet) : Prop :=
  cfg.cm_pktsize_threshold ≤ ev.size_in_bits →
    sendsThrottle cfg (newIncast s ev) (arrive H cfg now s ev) = true →
    KeepsOrder cfg (turnOn cfg (arrive H cfg now s ev))
deriving Decidable

theorem Booked.report (h : Booked cfg out 0 s) (horder : ReportInOrder H cfg now s ev) :
    Booked cfg (ev :: out) 0 (reportIncomingEvent H cfg now s ev).1 := by
  unfold reportIncomingEvent
  split
  · rename_i hsmall
    have hpackets := fun src => @streamPackets_cons_small cfg out ev src (Nat.not_le.mpr hsmall)
    refine ⟨⟨fun src info hi => ?_, fun src info hi => ?_, fun src hi => ?_⟩, h.queued,
      h.incast, h.incast_flits⟩
    · rw [streamCount, hpackets]
      exact h.tallied.count src info hi
    · rw [streamFlits, hpackets]
      exact h.tallied.flits src info hi
    · rw [streamCount, hpackets]
      exact h.tallied.absent src hi
  · rename_i hlarge
    have hlarge' := Nat.not_lt.mp hlarge
    have harrive := @Booked.arrive cfg out s ev now H h hlarge'
    dsimp only
    split
    · rename_i hsends
      exact harrive.turnOn.throttleAll (horder hlarge' hsends)
    · exact harrive

end Arrivals

section Deliveries

variable {cfg : Config} {out : List Packet} {s : PortControl} {ev : Packet} {now : Nat}
variable {H : HeapOps Nat Nat}
variable {m m' : OrderedMap Nat CongestionInfo} {q : List Nat} {k src : Nat} {ci : CongestionInfo}

theorem Tallied.of_deliver (h : Tallied cfg (ev :: out) m)
    (hlarge : cfg.cm_pktsize_threshold ≤ ev.size_in_bits)
    (hothers : ∀ k, k ≠ ev.src → m'.find? k = m.find? k)
    (hcount : ∀ info, m'.find? ev.src = some info →
      info.count = streamCount cfg out ev.src ∧ info.flit_count = streamFlits cfg out ev.src)
    (habsent : m'.find? ev.src = none → streamCount cfg out ev.src = 0) :
    Tallied cfg out m' := by
  refine ⟨fun src info hi => ?_, fun src info hi => ?_, fun src hi => ?_⟩
  · by_cases hsrc : src = ev.src
    · subst hsrc
      exact (hcount info hi).1
    · rw [hothers src hsrc] at hi
      rw [h.count src info hi, streamCount_cons hlarge, if_neg hsrc]
  · by_cases hsrc : src = ev.src
    · subst hsrc
      exact (hcount info hi).2
    · rw [hothers src hsrc] at hi
      rw [h.flits src info hi, streamFlits_cons hlarge, if_neg hsrc]
  · by_cases hsrc : src = ev.src
    · subst hsrc
      exact habsent hi
    · rw [hothers src hsrc] at hi
      rw [← h.absent src hi, streamCount_cons hlarge, if_neg hsrc]

theorem Queued.of_same (h : Queued m q) (hactive : ∀ src, IsActive m' src ↔ IsActive m src)
    (htime : ∀ src, IsActive m src → expiration m' src = expiration m src) :
    Queued m' q := by
  refine h.of_order hactive fun a ha b hb hle => ?_
  rw [htime a ((h.mem_iff a).mp ha), htime b ((h.mem_iff b).mp hb)]
  exact hle

theorem Booked.deliver (h : Booked cfg (ev :: out) 0 s)
    (hstream : cfg.cm_pktsize_threshold ≤ ev.size_in_bits ∨ s.congestion_map.find? ev.src = none) :
    Booked cfg out 0 (deliver s ev) := by
  unfold CongestionManagement.deliver
  dsimp only
  split
  · rename_i hnone
    have hsmall : ¬ cfg.cm_pktsize_threshold ≤ ev.size_in_bits := by
      intro hlarge
      have hzero := h.tallied.absent ev.src hnone
      rw [streamCount_cons hlarge, if_pos rfl, streamCount] at hzero
      omega
    have hpackets := fun src => @streamPackets_cons_small cfg out ev src hsmall
    refine ⟨⟨fun src info hi => ?_, fun src info hi => ?_, fun src hi => ?_⟩, h.queued,
      h.incast, h.incast_flits⟩
    · rw [h.tallied.count src info hi, streamCount, streamCount, hpackets]
    · rw [h.tallied.flits src info hi, streamFlits, streamFlits, hpackets]
    · rw [← h.tallied.absent src hi, streamCount, streamCount, hpackets]
  · rename_i ci hfind
    have hlarge : cfg.cm_pktsize_threshold ≤ ev.size_in_bits :=
      hstream.resolve_right fun hnone => by rw [hfind] at hnone; cases hnone
    have hget : (s.congestion_map.find? ev.src).getD .new = ci := by rw [hfind]; rfl
    have hcount : ci.count - 1 = streamCount cfg out ev.src := by
      rw [h.tallied.count ev.src ci hfind, streamCount_cons hlarge, if_pos rfl]
      omega
    have hflits : ci.flit_count - ev.flits = streamFlits cfg out ev.src := by
      rw [h.tallied.flits ev.src ci hfind, streamFlits_cons hlarge, if_pos rfl]
      omega
    split
    · rename_i hgone
      have hinactive : ci.active = false := hgone.2
      have hnot : ¬ IsActive s.congestion_map ev.src := by
        rw [isActive_iff_getD, hget, hinactive]
        exact Bool.false_ne_true
      refine ⟨?_, h.queued.of_same (fun src => ?_) (fun src hsrc => ?_), ?_, ?_⟩
      · refine h.tallied.of_deliver hlarge (fun k hk => OrderedMap.find?_erase_of_ne _ hk)
          (fun info hi => ?_) (fun _ => ?_)
        · rw [OrderedMap.find?_erase_self] at hi
          cases hi
        · rw [← hcount]
          exact hgone.1
      · by_cases hsrc : src = ev.src
        · subst hsrc
          exact iff_of_false not_isActive_erase hnot
        · exact isActive_congr (OrderedMap.find?_erase_of_ne _ hsrc)
      · have hne : src ≠ ev.src := fun heq => hnot (heq ▸ hsrc)
        exact expiration_congr (OrderedMap.find?_erase_of_ne _ hne)
      · simp only [OrderedMap.sumOf_erase activeOne hfind, activeOne, hinactive, h.incast]
        simp
      · simp only [OrderedMap.sumOf_erase activeFlits hfind, activeFlits, hinactive, h.incast_flits]
        simp
    · refine ⟨?_, h.queued.of_same (fun src => ?_) (fun src _ => ?_), ?_, ?_⟩
      · refine h.tallied.of_deliver hlarge (fun k hk => OrderedMap.find?_insert_of_ne _ _ hk)
          (fun info hi => ?_) (fun hnone => ?_)
        · rw [OrderedMap.find?_insert_self] at hi
          cases hi
          exact ⟨hcount, hflits⟩
        · rw [OrderedMap.find?_insert_self] at hnone
          cases hnone
      · by_cases hsrc : src = ev.src
        · subst hsrc
          rw [isActive_insert_self, isActive_iff_getD, hget]
        · exact isActive_congr (OrderedMap.find?_insert_of_ne _ _ hsrc)
      · by_cases hsrc : src = ev.src
        · subst hsrc
          simp [expiration, hfind]
        · exact expiration_congr (OrderedMap.find?_insert_of_ne _ _ hsrc)
      · simp only [OrderedMap.sumOf_insert activeOne _ hfind, activeOne, h.incast]
        omega
      · simp only [OrderedMap.sumOf_insert activeFlits _ hfind, activeFlits, h.incast_flits]
        split <;> omega

section

variable (h : Booked cfg out k s)
variable (hq : s.expiration_queue = src :: q)
variable (hfind : s.congestion_map.find? src = some ci)
include h hq hfind

theorem Booked.removeStream (hactive : ci.active = true) :
    Booked cfg out (k + 1)
      (removeStream cfg
        { s with
          expiration_queue := H.pop (expiration s.congestion_map) s.expiration_queue }
        src ci).1 := by
  have hqueued : Queued s.congestion_map (src :: q) := hq ▸ h.queued
  have hcount := h.tallied.count src ci hfind
  unfold CongestionManagement.removeStream
  rw [hq]
  split
  · rename_i hzero
    rw [hzero] at hcount
    have hflits : ci.flit_count = 0 := by
      rw [h.tallied.flits src ci hfind, streamFlits_eq_zero hcount.symm]
    refine ⟨h.tallied.erase hcount.symm, hqueued.pop_erase, ?_, ?_⟩
    · simp only [OrderedMap.sumOf_erase activeOne hfind, activeOne, hactive, h.incast]
      simp
    · simp only [OrderedMap.sumOf_erase activeFlits hfind, activeFlits, hactive, hflits,
        h.incast_flits]
      simp
  · refine ⟨h.tallied.insert hcount (h.tallied.flits src ci hfind),
      hqueued.pop (fun k hk => OrderedMap.find?_insert_of_ne _ _ hk) ?_, ?_, ?_⟩
    · rw [isActive_insert_self]
      exact Bool.false_ne_true
    · simp only [OrderedMap.sumOf_insert activeOne _ hfind, activeOne, hactive, h.incast]
      simp
    · simp only [OrderedMap.sumOf_insert activeFlits _ hfind, activeFlits, hactive, h.incast_flits]
      simp

theorem Booked.requeue {time : Nat} (hactive : ci.active = true) :
    Booked cfg out k
      { s with
        congestion_map := s.congestion_map.insert src { ci with expiration_time := time }
        expiration_queue :=
          H.push (expiration (s.congestion_map.insert src { ci with expiration_time := time }))
            (H.pop (expiration s.congestion_map) s.expiration_queue) src } := by
  have hqueued : Queued s.congestion_map (src :: q) := hq ▸ h.queued
  rw [hq]
  refine ⟨h.tallied.insert (h.tallied.count src ci hfind) (h.tallied.flits src ci hfind),
    ?_, ?_, ?_⟩
  · refine hqueued.pop_erase.push (fun k hk => ?_) not_isActive_erase
      (isActive_insert_self.mpr hactive)
    rw [OrderedMap.find?_insert_of_ne _ _ hk, OrderedMap.find?_erase_of_ne _ hk]
  · simp only [OrderedMap.sumOf_insert activeOne _ hfind, activeOne, h.incast]
    omega
  · simp only [OrderedMap.sumOf_insert activeFlits _ hfind, activeFlits, h.incast_flits]
    omega

end

theorem Booked.expireStreams {fuel : Nat} (h : Booked cfg out k s) :
    Booked cfg out (expireStreams H cfg now fuel s k).2.1
      (expireStreams H cfg now fuel s k).1 := by
  induction fuel generalizing s k with
  | zero => exact h
  | succ fuel ih =>
    unfold CongestionManagement.expireStreams
    split
    · exact h
    · rename_i src q hq
      have hmem : src ∈ s.expiration_queue := hq ▸ mem_cons_self
      obtain ⟨ci, hfind, hactive⟩ := (h.queued.mem_iff src).mp hmem
      split
      · simp only [hfind]
        split
        · exact ih (h.removeStream hq hfind hactive)
        · exact ih (h.requeue hq hfind hactive)
      · exact h

theorem Booked.throttleRest {send_incast : Int} (h : Booked cfg out k s) :
    Booked cfg out k (throttleRest cfg send_incast s).1 := by
  have hkeeps : ∀ info : CongestionInfo,
      (if info.active = true then { info with throttle := send_incast } else info) =
        { info with throttle := if info.active = true then send_incast else info.throttle } := by
    intro info
    split <;> rfl
  refine h.mapValues (fun info => ?_) (fun info => ?_) (fun info => ?_)
    (fun _ _ ainfo binfo _ _ _ _ hle => ?_) rfl
  · rw [hkeeps]
  · rw [hkeeps]
  · rw [hkeeps]
  · rw [hkeeps, hkeeps]
    exact hle

theorem Booked.afterExpiry {expired : Nat} (h : Booked cfg out expired s) :
    Booked cfg out 0 (afterExpiry cfg s expired).1 := by
  have hincast : Booked cfg out 0 { s with current_incast := s.current_incast - expired } := by
    refine ⟨h.tallied, h.queued, ?_, h.incast_flits⟩
    have hold := h.incast
    dsimp only
    omega
  unfold CongestionManagement.afterExpiry
  dsimp only
  split
  · split
    · refine Booked.throttleRest ?_
      exact hincast.of_same rfl rfl rfl rfl
    · exact hincast.throttleRest
  · exact hincast

theorem Booked.update (h : Booked cfg (ev :: out) 0 s)
    (hstream : cfg.cm_pktsize_threshold ≤ ev.size_in_bits ∨ s.congestion_map.find? ev.src = none) :
    Booked cfg out 0 (updateCongestionState H cfg now s ev).1 :=
  (h.deliver hstream).expireStreams.afterExpiry

end Deliveries

section Runs

variable {cfg : Config} {H : HeapOps Nat Nat}

/-- The books of a port, as they are to be between two calls. -/
structure Exact (cfg : Config) (s : State) : Prop where
  count : ∀ src info, s.port.congestion_map.find? src = some info →
    info.count = (streamPackets cfg s.outstanding src).length
  flits : ∀ src info, s.port.congestion_map.find? src = some info →
    info.flit_count = ((streamPackets cfg s.outstanding src).map Packet.flits).sum
  incast_flits : s.port.total_incast_flits =
    ((s.port.congestion_map.entries.filter (fun x => x.2.active)).map (fun x => x.2.flit_count)).sum
  incast : s.port.current_incast =
    (s.port.congestion_map.entries.filter (fun x => x.2.active)).length
  queue_nodup : s.port.expiration_queue.Nodup
  queue_active : ∀ src, src ∈ s.port.expiration_queue ↔
    ∃ info, s.port.congestion_map.find? src = some info ∧ info.active = true
  top_first : ∀ top, s.port.expiration_queue.head? = some top →
    ∀ src ∈ s.port.expiration_queue,
      expiration s.port.congestion_map top ≤ expiration s.port.congestion_map src

theorem sum_active (f : CongestionInfo → Int) (l : List (Nat × CongestionInfo)) :
    ((l.filter (fun x => x.2.active)).map (fun x => f x.2)).sum =
      (l.map (fun x => if x.2.active then f x.2 else 0)).sum := by
  induction l with
  | nil => rfl
  | cons x l ih =>
    cases hactive : x.2.active <;> simp [hactive, ih]

theorem Booked.exact {out : List Packet} {s : PortControl} (h : Booked cfg out 0 s) :
    Exact cfg ⟨s, out⟩ := by
  refine ⟨h.tallied.count, fun src info hi => ?_, ?_, ?_, h.queued.nodup, h.queued.mem_iff,
    fun top htop src hsrc => h.queued.heap.front_le htop hsrc⟩
  · rw [h.tallied.flits src info hi, streamFlits, Nat.cast_list_sum, List.map_map]
    rfl
  · rw [h.incast_flits, sum_active]
    rfl
  · have hones := sum_active (fun _ => 1) s.congestion_map.entries
    rw [map_const', sum_replicate, nsmul_one] at hones
    have hincast := h.incast
    rw [OrderedMap.sumOf, CharP.cast_eq_zero, add_zero] at hincast
    exact hincast.trans hones.symm

/-- The window that is cast to `int`, if the call reads one, and the `int` counters fit theirs. -/
def FitsInt (cfg : Config) (s : State) : Op → Prop
  | .report ev _ =>
    ((ev :: s.outstanding).map Packet.flits).sum < 2 ^ 31 ∧ s.outstanding.length + 1 < 2 ^ 31 ∧
      (cfg.cm_pktsize_threshold ≤ ev.size_in_bits → newIncast s.port ev = true →
        window cfg { s.port with current_incast := s.port.current_incast + 1 } < 2 ^ 31)
  | .update _ now => ∀ src ∈ s.port.expiration_queue,
      expiration s.port.congestion_map src ≤ now → window cfg s.port < 2 ^ 31

/--
A small packet leaves only while its source is not in the map, a report raises no
queued stream past another one, and what is an `int` fits one.
-/
def InOrder (H : HeapOps Nat Nat) (cfg : Config) (s : State) (op : Op) : Prop :=
  FitsInt cfg s op ∧
    match op with
    | .report ev now => ReportInOrder H cfg now s.port ev
    | .update ev _ => cfg.cm_pktsize_threshold ≤ ev.size_in_bits ∨
        s.port.congestion_map.find? ev.src = none

instance (cfg : Config) (s : State) : ∀ op, Decidable (FitsInt cfg s op)
  | .report _ _ => inferInstanceAs (Decidable (_ ∧ _ ∧ (_ → _ → _)))
  | .update _ _ => inferInstanceAs (Decidable (∀ _ ∈ _, _ → _))

instance (H : HeapOps Nat Nat) (cfg : Config) (s : State) : ∀ op, Decidable (InOrder H cfg s op)
  | .report _ _ => inferInstanceAs (Decidable (_ ∧ ReportInOrder H cfg _ _ _))
  | .update _ _ => inferInstanceAs (Decidable (_ ∧ (_ ∨ _)))

/-- A port that manages congestion as soon as one flit is outstanding. -/
def eager : Config := ⟨7, 1, 1, 1, 1, 1024⟩

end Runs

end SstElements.Merlin.CongestionManagement
