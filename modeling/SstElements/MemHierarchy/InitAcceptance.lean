import SstElements.MemHierarchy.InitData

/-!
# Which initialisation events are accepted

`processInitEvent` tests the local address of an event against the region,
which holds global addresses.  The test is the one of the run-time path exactly
if the region is empty or local and global addresses agree in it.
-/

namespace SstElements.MemHierarchy

open Library Nat

namespace MemController

open MemRegion

/-- The event is one for the region, within one chunk of it. -/
def Served (c : MemController) : ControllerEvent → Prop
  | .init cmd addr payload =>
    cmd = .Write → payload.length < 2 ^ 64 ∧ c.InOneChunk addr payload.length
  | .request ev _ =>
    match ev.cmd_ with
    | .PutM | .GetS | .GetX | .GetSX =>
      c.InOneChunk (dataAddr ev) ev.size_.toNat
    | .Write => c.InOneChunk ev.addr_ ev.size_.toNat
    | .FlushLine | .FlushLineInv =>
      ev.payload_.length ≠ 0 →
        c.InOneChunk ev.baseAddr_ (UInt32.ofNat ev.getPayload.length).toNat
    | .PutS | .PutE => True
    | _ => False

/--
The test of initialisation events is the one of the region, and every run of
events is answered as by a flat map in which initialisation events are writes.
-/
structure InitReachesMemory (c : MemController) (fresh : Addr → Nat → UInt8)
    (kind : BackingKind) : Prop where
  accepts : ∀ addr, c.isRequestAddressValid (c.translateToLocal addr) =
    c.region_.contains addr
  stored : ∀ b f, Backing.Shows fresh kind b f →
    ∀ events, (∀ e ∈ events, c.Served e) →
      ∃ replies,
        answersOf (c.dataStep fresh) b events = some replies ∧
        answersOf (fun g e => some (flatData g e)) (fun x => f (c.position x))
          events = some replies

def LocalIsGlobal (r : MemRegion) : Prop :=
  r.end_ < r.start ∨
    (r.start = 0 ∧
      (r.interleaveSize = 0 ∨ r.interleaveStep = r.interleaveSize ∨ r.end_ < r.interleaveStep))

section Acceptance

variable {c : MemController}

theorem contains_of_empty (h : c.region_.end_ < c.region_.start) (addr : Addr) :
    c.region_.contains addr = false := by
  rw [Bool.eq_false_iff]
  intro hcontains
  obtain ⟨hstart, hend, -⟩ := (contains_iff _ _).1 hcontains
  have hlt := UInt64.lt_iff_toNat_lt.1 h
  omega

theorem toNat_translateToLocal_of_start (hr : c.region_.Translatable)
    (hoffset : c.privateMemOffset_ = 0) (hstart : c.region_.start = 0) (addr : Addr) :
    (c.translateToLocal addr).toNat =
      Chunked.rank c.region_.chunkSize c.region_.chunkStep addr.toNat := by
  have hle : Chunked.rank c.region_.chunkSize c.region_.chunkStep addr.toNat ≤
      addr.toNat := Chunked.rank_le (chunkSize_le_chunkStep hr) _
  have hlt := toNat_lt_size addr
  have hzero : c.region_.start.toNat = 0 := by
    rw [hstart]
    rfl
  have hge : c.region_.start ≤ addr := UInt64.le_iff_toNat_le.2 (by omega)
  rw [translateToLocal_toNat hr hge, hoffset, position, hzero, Nat.sub_zero,
    show (0 : UInt64).toNat = 0 from rfl, add_zero, mod_eq_of_lt (by omega)]

theorem rank_eq_self {size step x : Nat} (h : step = size ∨ x < step) :
    Chunked.rank size step x = x := by
  unfold Chunked.rank
  rcases h with rfl | hlt
  · rw [mul_comm]
    exact div_add_mod _ _
  · rw [div_eq_of_lt hlt, mod_eq_of_lt hlt, zero_mul, zero_add]

section

variable (hr : c.region_.Translatable) (hoffset : c.privateMemOffset_ = 0)
include hr hoffset

theorem not_contains_translateToLocal (hstart : c.region_.start = 0)
    (hsize : c.region_.interleaveSize ≠ 0) (hend : c.region_.end_ < c.region_.interleaveStep)
    {addr : Addr} (haddr : c.region_.interleaveStep ≤ addr) :
    c.region_.contains (c.translateToLocal addr) = false := by
  have hlt := UInt64.lt_iff_toNat_lt.1 hend
  have hle := UInt64.le_iff_toNat_le.1 haddr
  have hzero : c.region_.start.toNat = 0 := by
    rw [hstart]
    rfl
  have hlocal := toNat_translateToLocal_of_start hr hoffset hstart addr
  unfold Chunked.rank chunkSize chunkStep at hlocal
  rw [if_neg hsize, if_neg hsize] at hlocal
  have hsteps : 1 ≤ addr.toNat / c.region_.interleaveStep.toNat :=
    (Nat.one_le_div_iff (by omega)).2 hle
  have hchunks := mul_le_mul_right c.region_.interleaveSize.toNat hsteps
  rw [Bool.eq_false_iff]
  intro hcontains
  obtain ⟨-, hlast, hchunk⟩ := (contains_iff _ _).1 hcontains
  have hin := hchunk.resolve_left hsize
  rw [hzero, Nat.sub_zero, mod_eq_of_lt (by omega)] at hin
  omega

theorem accepts_of_localIsGlobal (h : LocalIsGlobal c.region_) (addr : Addr) :
    c.isRequestAddressValid (c.translateToLocal addr) = c.region_.contains addr := by
  unfold isRequestAddressValid
  rcases h with hempty | ⟨hstart, hsame⟩
  · rw [contains_of_empty hempty, contains_of_empty hempty]
  · have hself : Chunked.rank c.region_.chunkSize c.region_.chunkStep addr.toNat =
        addr.toNat →
        c.translateToLocal addr = addr := fun hrank =>
      UInt64.toNat_inj.1
        ((toNat_translateToLocal_of_start hr hoffset hstart addr).trans hrank)
    by_cases hsize : c.region_.interleaveSize = 0
    · rw [hself (rank_eq_self (.inl (by simp [chunkSize, chunkStep, hsize])))]
    · rcases hsame.resolve_left hsize with heq | hend
      · rw [hself (rank_eq_self (.inl (by simp [chunkSize, chunkStep, hsize, heq])))]
      · by_cases haddr : addr < c.region_.interleaveStep
        · have hlt := UInt64.lt_iff_toNat_lt.1 haddr
          rw [hself (rank_eq_self (.inr (by simpa [chunkStep, hsize] using hlt)))]
        · have hge := UInt64.not_lt.1 haddr
          rw [not_contains_translateToLocal hr hoffset hstart hsize hend hge, eq_comm,
            Bool.eq_false_iff]
          intro hcontains
          obtain ⟨-, hlast, -⟩ := (contains_iff _ _).1 hcontains
          have hlt := UInt64.lt_iff_toNat_lt.1 hend
          have hle := UInt64.le_iff_toNat_le.1 hge
          omega

theorem start_eq_zero_of_accepts (hnonempty : c.region_.start ≤ c.region_.end_)
    (h : ∀ addr, c.isRequestAddressValid (c.translateToLocal addr) = c.region_.contains addr) :
    c.region_.start = 0 := by
  have hcontains : c.region_.contains c.region_.start = true := by
    refine (contains_iff _ _).2 ⟨le_rfl, UInt64.le_iff_toNat_le.1 hnonempty, ?_⟩
    by_cases hsize : c.region_.interleaveSize = 0
    · exact .inl hsize
    · right
      rw [Nat.sub_self, zero_mod]
      exact pos_of_ne_zero fun h₀ => hsize ((toNat_eq_zero_iff _).1 h₀)
  have hlocal := toNat_translateToLocal hr hoffset hcontains
  have hposition : c.position c.region_.start.toNat = 0 := by simp [position, Chunked.rank]
  have haccepted := (h c.region_.start).trans hcontains
  obtain ⟨hle, -, -⟩ := (contains_iff _ _).1 haccepted
  exact (toNat_eq_zero_iff _).1 (by omega)

theorem not_accepts_secondChunk (hstart : c.region_.start = 0)
    (hsize : c.region_.interleaveSize ≠ 0)
    (hgap : c.region_.interleaveStep ≠ c.region_.interleaveSize)
    (hend : c.region_.interleaveStep ≤ c.region_.end_)
    (h : ∀ addr, c.isRequestAddressValid (c.translateToLocal addr) = c.region_.contains addr) :
    False := by
  have hzero : c.region_.start.toNat = 0 := by
    rw [hstart]
    rfl
  have hle := interleave_le hr hsize
  have hpos : 0 < c.region_.interleaveSize.toNat :=
    pos_of_ne_zero (fun h₀ => hsize ((toNat_eq_zero_iff _).1 h₀))
  have hlt : c.region_.interleaveSize.toNat < c.region_.interleaveStep.toNat :=
    lt_of_le_of_ne hle (fun heq => hgap (UInt64.toNat_inj.1 heq.symm))
  have hcontains : c.region_.contains c.region_.interleaveStep = true := by
    refine (contains_iff _ _).2 ⟨by omega, UInt64.le_iff_toNat_le.1 hend, .inr ?_⟩
    rwa [hzero, Nat.sub_zero, mod_self]
  have hlocal := toNat_translateToLocal_of_start hr hoffset hstart
    c.region_.interleaveStep
  unfold Chunked.rank chunkSize chunkStep at hlocal
  rw [if_neg hsize, if_neg hsize, Nat.div_self (by omega), mod_self, one_mul,
    add_zero] at hlocal
  have haccepted := (h c.region_.interleaveStep).trans hcontains
  obtain ⟨-, -, hchunk⟩ := (contains_iff _ _).1 haccepted
  have hin := hchunk.resolve_left hsize
  rw [hlocal, hzero, Nat.sub_zero, mod_eq_of_lt hlt] at hin
  exact lt_irrefl _ hin

theorem localIsGlobal_of_accepts
    (h : ∀ addr, c.isRequestAddressValid (c.translateToLocal addr) = c.region_.contains addr) :
    LocalIsGlobal c.region_ := by
  by_cases hnonempty : c.region_.start ≤ c.region_.end_
  · have hstart := start_eq_zero_of_accepts hr hoffset hnonempty h
    refine .inr ⟨hstart, ?_⟩
    by_contra hnot
    obtain ⟨hsize, hgap, hend⟩ : c.region_.interleaveSize ≠ 0 ∧
        c.region_.interleaveStep ≠ c.region_.interleaveSize ∧
        ¬ c.region_.end_ < c.region_.interleaveStep := by
      simpa only [not_or] using hnot
    exact not_accepts_secondChunk hr hoffset hstart hsize hgap
      (UInt64.not_lt.1 hend) h
  · exact .inl (UInt64.not_le.1 hnonempty)

end

end Acceptance

section Stored

variable {c : MemController} {fresh : Addr → Nat → UInt8} {kind : BackingKind}

section

variable (hr : c.region_.Translatable) (hroom : c.region_.bytes ≤ kind.limit)
include hr hroom

theorem InOneChunk.inStore {addr : Addr} {n : Nat} (h : c.InOneChunk addr n) :
    c.InStore kind addr n := by
  refine ⟨h, ?_⟩
  rcases Nat.eq_zero_or_pos n with rfl | hn
  · have hlt := position_lt_bytes hr ((contains_iff _ _).1 h.contains)
    omega
  · have hlast := h.position_add hr (show n - 1 < n by omega)
    have hlt := position_lt_bytes hr (h.inRegion hr (show n - 1 < n by omega))
    omega

theorem Served.regular
    (haccepts : ∀ addr, c.isRequestAddressValid (c.translateToLocal addr) = c.region_.contains addr)
    {e : ControllerEvent} (he : c.Served e) :
    c.Regular kind e := by
  cases e with
  | init cmd addr payload =>
    intro hcmd
    obtain ⟨hlength, hchunk⟩ := he hcmd
    exact ⟨hlength, hchunk.inStore hr hroom, (haccepts addr).trans hchunk.contains⟩
  | request ev flags =>
    cases hcmd : ev.cmd_ <;> simp only [Served, hcmd] at he <;>
      simp only [Regular, hcmd]
    case FlushLine => exact fun hne => (he hne).inStore hr hroom
    case FlushLineInv => exact fun hne => (he hne).inStore hr hroom
    all_goals exact he.inStore hr hroom

end

theorem inOneChunk_one {addr : Addr} (haddr : c.region_.contains addr = true) :
    c.InOneChunk addr 1 := by
  obtain ⟨hstart, hend, hchunk⟩ := (contains_iff _ _).1 haddr
  refine ⟨haddr, ?_, hchunk⟩
  unfold MemRegion.span
  omega

theorem Backing.Shows.step_eq_none {b : Backing} {f : Nat → UInt8} (hb : b.Shows fresh kind f)
    {addr : Addr} {v : UInt8} (haddr : kind.limit ≤ addr.toNat) :
    b.step fresh (.setVector addr 1 [v]) = none := by
  cases b with
  | mmap b =>
    obtain ⟨size, rfl, hb⟩ := hb
    have hlt : ¬ addr < b.m_size := by
      rw [hb.size_eq, UInt64.lt_iff_toNat_lt]
      exact Nat.not_lt.2 haddr
    simp [Backing.step, BackingMMAP.step, BackingMMAP.setLoop, BackingMMAP.store, hlt]
  | malloc b =>
    obtain ⟨k, rfl, -⟩ := hb
    exact absurd haddr (Nat.not_le.2 (toNat_lt_size addr))

theorem bytes_le_limit_of_reaches (hr : c.region_.Translatable) (hoffset : c.privateMemOffset_ = 0)
    (hkind : kind.Valid) (h : c.InitReachesMemory fresh kind) :
    c.region_.bytes ≤ kind.limit := by
  by_contra hroom
  have hin := inRegion_unrank hr (show c.region_.bytes - 1 < c.region_.bytes by omega)
  have hlt := toNat_lt_size c.region_.end_
  obtain ⟨addr, haddr⟩ : ∃ addr : Addr, addr.toNat = c.region_.start.toNat +
      c.distance (c.region_.bytes - 1) :=
    ⟨UInt64.ofNat _, UInt64.toNat_ofNat_of_lt' (lt_of_le_of_lt hin.2.1 hlt)⟩
  have hcontains : c.region_.contains addr = true := (contains_iff _ _).2 (haddr ▸ hin)
  have hposition := position_distance hr (c.region_.bytes - 1)
  rw [← haddr] at hposition
  obtain ⟨b, f, hb⟩ := @BackingKind.Valid.exists_shows fresh kind hkind
  have hnone : c.processInitEvent fresh b .Write addr [0] = none := by
    have hstep := @Backing.Shows.step_eq_none fresh kind b f hb
      (c.translateToLocal addr) 0
      (by rw [toNat_translateToLocal hr hoffset hcontains, hposition]; omega)
    simp [processInitEvent, h.accepts, hcontains, hstep]
  obtain ⟨replies, hreplies, -⟩ := h.stored b f hb [.init .Write addr [0]] (by
    intro e he
    rw [List.mem_singleton.1 he]
    exact fun _ => ⟨by decide, inOneChunk_one hcontains⟩)
  simp [answersOf, dataStep, hnone] at hreplies

end Stored

/--
Initialisation data reaches the memory exactly if local addresses of the region
are its global addresses and the memory has room for it.
-/
theorem initReachesMemory_iff (c : MemController) (fresh : Addr → Nat → UInt8) (kind : BackingKind)
    (hr : c.region_.Translatable)
    (hoffset : c.privateMemOffset_ = 0)
    (hkind : kind.Valid) :
    c.InitReachesMemory fresh kind ↔
      LocalIsGlobal c.region_ ∧ c.region_.bytes ≤ kind.limit := by
  constructor
  · intro h
    exact ⟨localIsGlobal_of_accepts hr hoffset h.accepts,
      bytes_le_limit_of_reaches hr hoffset hkind h⟩
  · rintro ⟨hlocal, hroom⟩
    have haccepts := accepts_of_localIsGlobal hr hoffset hlocal
    refine ⟨haccepts, fun b f hb events hevents => ?_⟩
    exact Holds.answersOf hr hoffset ⟨f, hb, fun _ _ => rfl⟩
      (fun e he => (hevents e he).regular hr hroom haccepts)

/-- A controller of 4096 bytes from an address on, with a zeroed memory. -/
def fourKB (start : Addr) : MemController where
  region_ :=
    { start := start
      end_ := start + 4095
      interleaveSize := 0
      interleaveStep := 0 }
  memSize_ := 4096
  privateMemOffset_ := 0
  linkRegion :=
    { start := start
      end_ := start + 4095
      interleaveSize := 0
      interleaveStep := 0 }

theorem initReachesMemory_iff_fourKB : (fourKB 0).InitReachesMemory (fun _ _ => 0) (.mmap 4096) :=
  (initReachesMemory_iff (fourKB 0) (fun _ _ => 0) (.mmap 4096) (.inl rfl) rfl
    trivial).2 ⟨.inr ⟨rfl, .inl rfl⟩, by decide⟩

/-- The byte of an initialisation event at the start of a later region is lost. -/
theorem initData_lost :
    ¬ (fourKB 4096).InitReachesMemory (fun _ _ => 0) (.mmap 4096) ∧
      (fourKB 4096).region_.contains 4096 = true ∧
      answersOf ((fourKB 4096).dataStep (fun _ _ => 0))
        (.mmap ⟨fun _ => 0, 4096, 0⟩)
        [.init .Write 4096 [7],
          .request { MemEvent.new 0 "cpu" 4096 4096 .GetS with size_ := 1 } 0] =
        some [[], [0]] := by
  refine ⟨fun h => ?_, by decide, by decide⟩
  exact absurd (h.accepts 4096) (by decide)

end MemController

end SstElements.MemHierarchy
