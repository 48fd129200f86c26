import SstElements.MemHierarchy.MemControllerData

/-!
# Initialisation data reaches the memory

Seen through the addresses of its region, a memory controller is a flat map of
bytes: what a request reads is what the most recent write or initialisation
event put there.  An initialisation event is dropped if its local address fails
a test that is made for global addresses.
-/

namespace SstElements.MemHierarchy

open Library List Option UInt32

/-- The kind of a store, with the size of the buffer or the unit of the blocks. -/
inductive BackingKind where
  | mmap (size : UInt64)
  | malloc (k : Nat)
deriving DecidableEq, Repr

namespace BackingKind

/-- The unit of the blocks is one whose shift can be computed. -/
def Valid : BackingKind → Prop
  | mmap _ => True
  | malloc k => k < 31

/-- The addresses that the store has. -/
def limit : BackingKind → Nat
  | mmap size => size.toNat
  | malloc _ => 2 ^ 64

end BackingKind

/-- A store of a kind with the bytes of a map. -/
def Backing.Shows (fresh : Addr → Nat → UInt8) (kind : BackingKind) : Backing → (Nat → UInt8) → Prop
  | .mmap b, f => ∃ size, kind = .mmap size ∧ b.Shows size f
  | .malloc b, f => ∃ k, kind = .malloc k ∧ b.Shows fresh k f

section Store

variable {fresh : Addr → Nat → UInt8} {kind : BackingKind}
variable {b : Backing} {f : Nat → UInt8}

theorem Backing.Shows.step {call : BackingCall} (hb : b.Shows fresh kind f)
    (hcall : call.InRange 0 kind.limit) :
    ∃ b', b.step fresh call = some ((call.flat f).1, b') ∧ b'.Shows fresh kind (call.flat f).2 := by
  cases b with
  | mmap b =>
    obtain ⟨size, rfl, hb⟩ := hb
    obtain ⟨b', hb', hshows⟩ := hb.step hcall
    exact ⟨.mmap b', by simp [Backing.step, hb'], size, rfl, hshows⟩
  | malloc b =>
    obtain ⟨k, rfl, hb⟩ := hb
    obtain ⟨b', hb', hshows⟩ := hb.step hcall
    exact ⟨.malloc b', by simp [Backing.step, hb'], k, rfl, hshows⟩

theorem BackingKind.Valid.exists_shows (hkind : kind.Valid) :
    ∃ b f, Backing.Shows fresh kind b f := by
  cases kind with
  | mmap size =>
    exact ⟨.mmap ⟨fun _ => 0, size, 0⟩, fun _ => 0, size, rfl, rfl, rfl, fun _ _ => rfl⟩
  | malloc k =>
    obtain ⟨b, f, -, hb⟩ := @BackingMalloc.new_of_lt true fresh k hkind
    exact ⟨.malloc b, f, k, rfl, hb⟩

end Store

namespace MemController

open MemRegion

/-- A range of bytes lies in one chunk of the region. -/
structure InOneChunk (c : MemController) (addr : Addr) (n : Nat) : Prop where
  contains : c.region_.contains addr = true
  span : addr.toNat - c.region_.start.toNat + n ≤ c.region_.span
  chunk : c.region_.interleaveSize = 0 ∨
    (addr.toNat - c.region_.start.toNat) % c.region_.interleaveStep.toNat + n ≤
      c.region_.interleaveSize.toNat

/-- A range in one chunk whose local addresses the store has. -/
structure InStore (c : MemController) (kind : BackingKind) (addr : Addr) (n : Nat) : Prop where
  inChunk : c.InOneChunk addr n
  fits : c.position addr.toNat + n ≤ kind.limit

/-- The address whose data a request other than a `Write` moves. -/
def dataAddr (ev : MemEvent) : Addr :=
  if ev.queryFlag MemEvent.F_NONCACHEABLE then ev.addr_ else ev.baseAddr_

/-- What an event makes of a flat map of the global addresses. -/
def flatData (g : Nat → UInt8) : ControllerEvent → List UInt8 × (Nat → UInt8)
  | .init cmd addr payload =>
    ([], if cmd = .Write then writeFrom g addr.toNat payload else g)
  | .request ev _ =>
    match ev.cmd_ with
    | .PutM =>
      ([], writeFrom g (dataAddr ev).toNat (ev.getPayload.take ev.size_.toNat))
    | .Write =>
      ([], writeFrom g ev.addr_.toNat (ev.getPayload.take ev.size_.toNat))
    | .GetS | .GetX | .GetSX =>
      (if ev.queryFlag MemEvent.F_NORESPONSE then []
        else readFrom g (dataAddr ev).toNat ev.size_.toNat, g)
    | .FlushLine | .FlushLineInv =>
      ([], if ev.payload_.length = 0 then g
        else writeFrom g ev.baseAddr_.toNat
          (ev.getPayload.take (UInt32.ofNat ev.getPayload.length).toNat))
    | _ => ([], g)

/-- The event is one the controller handles, within one chunk and the store. -/
def Regular (c : MemController) (kind : BackingKind) : ControllerEvent → Prop
  | .init cmd addr payload =>
    cmd = .Write → payload.length < 2 ^ 64 ∧
      c.InStore kind addr payload.length ∧
      c.region_.contains (c.translateToLocal addr) = true
  | .request ev _ =>
    match ev.cmd_ with
    | .PutM | .GetS | .GetX | .GetSX =>
      c.InStore kind (dataAddr ev) ev.size_.toNat
    | .Write => c.InStore kind ev.addr_ ev.size_.toNat
    | .FlushLine | .FlushLineInv =>
      ev.payload_.length ≠ 0 →
        c.InStore kind ev.baseAddr_ (UInt32.ofNat ev.getPayload.length).toNat
    | .PutS | .PutE => True
    | _ => False

/-- The store holds the bytes of the region at their positions. -/
def Holds (c : MemController) (fresh : Addr → Nat → UInt8) (kind : BackingKind)
    (b : Backing) (g : Nat → UInt8) : Prop :=
  ∃ f, b.Shows fresh kind f ∧
    ∀ x, InRegion c.region_ x → f (c.position x) = g x

section Positions

variable {c : MemController} {addr : Addr} {n : Nat}

section

variable (hr : c.region_.Translatable)
include hr

theorem interleave_le (hsize : c.region_.interleaveSize ≠ 0) :
    c.region_.interleaveSize.toNat ≤ c.region_.interleaveStep.toNat := by
  have hle := chunkSize_le_chunkStep hr
  unfold chunkSize chunkStep at hle
  rwa [if_neg hsize, if_neg hsize] at hle

theorem InOneChunk.inRegion (h : c.InOneChunk addr n) {i : Nat} (hi : i < n) :
    InRegion c.region_ (addr.toNat + i) := by
  obtain ⟨hstart, hend, hchunk⟩ := (contains_iff _ _).1 h.contains
  have hspan := h.span
  unfold MemRegion.span at hspan
  refine ⟨by omega, by omega, ?_⟩
  by_cases hsize : c.region_.interleaveSize = 0
  · exact .inl hsize
  · right
    have hchunk := h.chunk.resolve_left hsize
    have hsub : addr.toNat + i - c.region_.start.toNat =
        addr.toNat - c.region_.start.toNat + i := by omega
    rw [hsub, Chunked.mod_add_of_chunk (interleave_le hr hsize) (by omega)]
    omega

theorem InOneChunk.position_add (h : c.InOneChunk addr n) {i : Nat} (hi : i < n) :
    c.position (addr.toNat + i) = c.position addr.toNat + i := by
  obtain ⟨hstart, -, -⟩ := (contains_iff _ _).1 h.contains
  have hsub : addr.toNat + i - c.region_.start.toNat =
      addr.toNat - c.region_.start.toNat + i := by omega
  unfold position
  rw [hsub]
  by_cases hsize : c.region_.interleaveSize = 0
  · unfold Chunked.rank chunkSize chunkStep
    simp [hsize, Nat.mod_one]
  · have hchunk := h.chunk.resolve_left hsize
    unfold chunkSize chunkStep
    rw [if_neg hsize, if_neg hsize, Chunked.rank_add_of_chunk (interleave_le hr hsize) (by omega)]

end

end Positions

section Moves

variable {c : MemController} {fresh : Addr → Nat → UInt8} {kind : BackingKind}
variable {b : Backing} {f g : Nat → UInt8} {addr : Addr} {n : Nat}

section

variable (hr : c.region_.Translatable)
include hr

theorem toNat_translateToLocal (hoffset : c.privateMemOffset_ = 0)
    (haddr : c.region_.contains addr = true) :
    (c.translateToLocal addr).toNat = c.position addr.toNat := by
  have hle : c.position addr.toNat ≤ addr.toNat - c.region_.start.toNat :=
    Chunked.rank_le (chunkSize_le_chunkStep hr) _
  have hlt := toNat_lt_size addr
  rw [translateToLocal_toNat hr (start_le_of_contains haddr), hoffset,
    show (0 : UInt64).toNat = 0 from rfl, add_zero, Nat.mod_eq_of_lt (by omega)]

theorem writeFrom_position (hchunk : c.InOneChunk addr n) {data : List UInt8}
    (hlength : data.length = n) (hg : ∀ x, InRegion c.region_ x → f (c.position x) = g x) {x : Nat}
    (hx : InRegion c.region_ x) :
    writeFrom f (c.position addr.toNat) data (c.position x) = writeFrom g addr.toNat data x := by
  have haddr := (contains_iff _ _).1 hchunk.contains
  rcases lt_or_ge x addr.toNat with hbefore | hge
  · have hpos := (position_lt_iff hr hx haddr).2 hbefore
    rw [writeFrom_apply_of_notMem (.inl hpos), writeFrom_apply_of_notMem (.inl hbefore), hg x hx]
  · rcases lt_or_ge x (addr.toNat + n) with hin | hafter
    · obtain ⟨i, rfl⟩ := Nat.exists_eq_add_of_le hge
      have hpos := hchunk.position_add hr (show i < n by omega)
      rw [hpos, writeFrom_apply_of_lt (by omega) (by omega),
        writeFrom_apply_of_lt (by omega) (by omega)]
      simp only [Nat.add_sub_cancel_left]
    · have hpos : c.position addr.toNat + n ≤ c.position x := by
        rcases Nat.eq_zero_or_pos n with rfl | hn
        · rcases eq_or_lt_of_le hge with heq | hlt
          · rw [heq, add_zero]
          · exact ((position_lt_iff hr haddr hx).2 hlt).le
        · have hlast := hchunk.position_add hr (show n - 1 < n by omega)
          have hlt := (position_lt_iff hr
            (hchunk.inRegion hr (show n - 1 < n by omega)) hx).2 (by omega)
          omega
      rw [writeFrom_apply_of_notMem (.inr (by omega)),
        writeFrom_apply_of_notMem (.inr (by omega)), hg x hx]

theorem readFrom_position (hchunk : c.InOneChunk addr n)
    (hg : ∀ x, InRegion c.region_ x → f (c.position x) = g x) :
    readFrom f (c.position addr.toNat) n = readFrom g addr.toNat n := by
  apply map_congr_left
  intro i hi
  have hi' := mem_range.1 hi
  rw [← hchunk.position_add hr hi', hg _ (hchunk.inRegion hr hi')]

theorem Holds.setVector (hoffset : c.privateMemOffset_ = 0) (hb : c.Holds fresh kind b g)
    {size : UInt64} {data : List UInt8} (hstore : c.InStore kind addr size.toNat)
    (hdata : size.toNat ≤ data.length) :
    ∃ b', b.step fresh (.setVector (c.translateToLocal addr) size data) = some ([], b') ∧
      c.Holds fresh kind b' (writeFrom g addr.toNat (data.take size.toNat)) := by
  obtain ⟨f, hf, hg⟩ := hb
  have hlocal := toNat_translateToLocal hr hoffset hstore.inChunk.contains
  have hrange : (BackingCall.setVector (c.translateToLocal addr) size data).InRange
      0 kind.limit :=
    ⟨Nat.zero_le _, by rw [hlocal]; exact hstore.fits, hdata⟩
  obtain ⟨b', hb', hshows⟩ := hf.step hrange
  refine ⟨b', hb', _, hshows, fun x hx => ?_⟩
  change writeFrom f (c.translateToLocal addr).toNat _ _ = _
  rw [hlocal]
  exact writeFrom_position hr hstore.inChunk
    (length_take_of_le hdata) hg hx

theorem Holds.getVector (hoffset : c.privateMemOffset_ = 0) (hb : c.Holds fresh kind b g)
    {size : UInt64} (hstore : c.InStore kind addr size.toNat) :
    ∃ b', b.step fresh (.getVector (c.translateToLocal addr) size (replicate size.toNat 0)) =
        some (readFrom g addr.toNat size.toNat, b') ∧ c.Holds fresh kind b' g := by
  obtain ⟨f, hf, hg⟩ := hb
  have hlocal := toNat_translateToLocal hr hoffset hstore.inChunk.contains
  have hrange : (BackingCall.getVector (c.translateToLocal addr) size
      (replicate size.toNat 0)).InRange 0 kind.limit :=
    ⟨Nat.zero_le _, by rw [hlocal]; exact hstore.fits, by simp⟩
  obtain ⟨b', hb', hshows⟩ := hf.step hrange
  refine ⟨b', ?_, f, hshows, hg⟩
  rw [hb']
  have hread := readFrom_position hr hstore.inChunk hg
  simp [BackingCall.flat, hlocal, hread]

end

end Moves

section Handlers

variable {c : MemController} {fresh : Addr → Nat → UInt8} {kind : BackingKind}
variable {b : Backing} {g : Nat → UInt8}

theorem size_le_length_getPayload (ev : MemEvent) :
    ev.size_.toUInt64.toNat ≤ ev.getPayload.length := by
  rw [toNat_toUInt64, MemEvent.getPayload, length_append, length_replicate]
  omega

@[simp] theorem queryFlag_withLocalAddrs (ev : MemEvent) (flag : UInt32) :
    (c.withLocalAddrs ev).queryFlag flag = ev.queryFlag flag := by
  rfl

theorem dataAddr_withLocalAddrs (ev : MemEvent) :
    (if (c.withLocalAddrs ev).queryFlag MemEvent.F_NONCACHEABLE then
        (c.withLocalAddrs ev).addr_
      else (c.withLocalAddrs ev).baseAddr_) = c.translateToLocal (dataAddr ev) := by
  unfold dataAddr
  rw [queryFlag_withLocalAddrs]
  split <;> rfl

theorem Holds.processInitEvent (hr : c.region_.Translatable) (hoffset : c.privateMemOffset_ = 0)
    (hb : c.Holds fresh kind b g) {addr : Addr} {payload : List UInt8}
    (hlength : payload.length < 2 ^ 64) (hstore : c.InStore kind addr payload.length)
    (hvalid : c.region_.contains (c.translateToLocal addr) = true) :
    ∃ b', c.processInitEvent fresh b .Write addr payload = some b' ∧
      c.Holds fresh kind b' (writeFrom g addr.toNat payload) := by
  have hsize : (UInt64.ofNat payload.length).toNat = payload.length :=
    UInt64.toNat_ofNat_of_lt' hlength
  obtain ⟨b', hb', hholds⟩ := @Holds.setVector c fresh kind b g addr hr hoffset hb
    (UInt64.ofNat payload.length) payload (by rwa [hsize]) hsize.le
  rw [hsize, take_length] at hholds
  refine ⟨b', ?_, hholds⟩
  simp [MemController.processInitEvent, isRequestAddressValid, hvalid, hb']

theorem handleMemResponse_of_write {ev : MemEvent} {flags : UInt32} {b' : Backing}
    (hcmd : ev.cmd_ = .PutM ∨ ev.cmd_ = .Write) (hwrite : writeData fresh b ev = some b') :
    (c.handleMemResponse fresh b ev flags).map (fun r => (dataOf r.1, r.2)) = some ([], b') := by
  unfold handleMemResponse
  rcases hcmd with hcmd | hcmd <;>
    by_cases hflag : ev.queryFlag MemEvent.F_NORESPONSE = true <;>
    simp [hcmd, hwrite, hflag, dataOf, MemEvent.makeResponse,
      MemEvent.setResponse, Command.response]

theorem handleMemResponse_of_read
    {ev : MemEvent} {flags : UInt32} {b' : Backing} {data : List UInt8}
    (hcmd : ev.cmd_ = .GetS ∨ ev.cmd_ = .GetX ∨ ev.cmd_ = .GetSX)
    (hread : b.step fresh (.getVector
        (if ev.queryFlag MemEvent.F_NONCACHEABLE then ev.addr_ else ev.baseAddr_)
        ev.size_.toUInt64 (replicate ev.size_.toNat 0)) = some (data, b')) :
    (c.handleMemResponse fresh b ev flags).map (fun r => (dataOf r.1, r.2)) =
      some (if ev.queryFlag MemEvent.F_NORESPONSE then ([], b) else (data, b')) := by
  have hreadData : readData fresh b ev.makeResponse =
      some (ev.makeResponse.setPayload data, b') :=
    congrArg (Option.map (fun r : List UInt8 × Backing =>
      (ev.makeResponse.setPayload r.1, r.2))) hread
  unfold handleMemResponse
  by_cases hflag : ev.queryFlag MemEvent.F_NORESPONSE = true
  · rcases hcmd with hcmd | hcmd | hcmd <;> simp [hcmd, hflag, dataOf]
  · have hresp : ev.makeResponse.cmd_ = .GetSResp ∨ ev.makeResponse.cmd_ = .GetXResp := by
      rcases hcmd with hcmd | hcmd | hcmd <;>
        simp [MemEvent.makeResponse, MemEvent.setResponse, hcmd, Command.response]
    have hnot : ¬ (ev.cmd_ = .PutM ∨ ev.cmd_ = .Write) := by
      rcases hcmd with hcmd | hcmd | hcmd <;> simp [hcmd]
    simp only [Bool.or_eq_true, decide_eq_true_eq, if_neg hnot, hflag, if_false,
      if_pos hresp, hreadData, map_some, bind_eq_bind, bind_some, Bool.false_eq_true]
    congr 1
    split
    · rcases hresp with h | h <;> simp [dataOf, MemEvent.setPayload, h]
    · simp [dataOf, MemEvent.setPayload]

theorem handleMemResponse_of_flush {ev : MemEvent} {flags : UInt32} (hcmd : ev.cmd_ = .FlushLine) :
    (c.handleMemResponse fresh b ev flags).map (fun r => (dataOf r.1, r.2)) = some ([], b) := by
  unfold handleMemResponse
  by_cases hflag : ev.queryFlag MemEvent.F_NORESPONSE = true <;>
    simp [hcmd, hflag, dataOf, MemEvent.makeResponse, MemEvent.setResponse, Command.response]

theorem queryFlag_setFlag {flag other : UInt32} (h : other &&& flag = 0) (ev : MemEvent) :
    (ev.setFlag other).queryFlag flag = ev.queryFlag flag := by
  have hand : (ev.flags_ ||| other) &&& flag = ev.flags_ &&& flag := by
    have hbits := congrArg UInt32.toBitVec h
    apply UInt32.toBitVec_inj.1
    simp only [UInt32.toBitVec_and, UInt32.toBitVec_or] at hbits ⊢
    apply BitVec.eq_of_getLsbD_eq
    intro i hi
    have hbit := congrArg (fun v => BitVec.getLsbD v i) hbits
    simp only [BitVec.getLsbD_and, BitVec.getLsbD_or] at hbit ⊢
    rw [Bool.and_or_distrib_right, hbit]
    simp
  simp only [MemEvent.queryFlag, MemEvent.setFlag, hand]

section

variable (hr : c.region_.Translatable)
variable (hoffset : c.privateMemOffset_ = 0)
variable (hb : c.Holds fresh kind b g)
include hr hoffset hb

theorem Holds.writeData_putM {ev : MemEvent} (hcmd : ev.cmd_ = .PutM) {addr : Addr}
    (haddr : (if ev.queryFlag MemEvent.F_NONCACHEABLE then ev.addr_
      else ev.baseAddr_) = c.translateToLocal addr)
    (hstore : c.InStore kind addr ev.size_.toNat) :
    ∃ b', writeData fresh b ev = some b' ∧ c.Holds fresh kind b'
        (writeFrom g addr.toNat (ev.getPayload.take ev.size_.toNat)) := by
  obtain ⟨b', hb', hholds⟩ := @Holds.setVector c fresh kind b g addr hr hoffset hb
    ev.size_.toUInt64 ev.getPayload (by rwa [toNat_toUInt64])
    (size_le_length_getPayload ev)
  refine ⟨b', ?_, hholds⟩
  unfold writeData
  rw [if_pos hcmd]
  simp only [haddr, hb', map_some]

theorem Holds.writeData_write {ev : MemEvent} (hcmd : ev.cmd_ = .Write) {addr : Addr}
    (haddr : ev.addr_ = c.translateToLocal addr) (hstore : c.InStore kind addr ev.size_.toNat) :
    ∃ b', writeData fresh b ev = some b' ∧ c.Holds fresh kind b'
        (writeFrom g addr.toNat (ev.getPayload.take ev.size_.toNat)) := by
  obtain ⟨b', hb', hholds⟩ := @Holds.setVector c fresh kind b g addr hr hoffset hb
    ev.size_.toUInt64 ev.getPayload (by rwa [toNat_toUInt64])
    (size_le_length_getPayload ev)
  refine ⟨b', ?_, hholds⟩
  unfold writeData
  rw [if_neg (by rw [hcmd]; decide), if_pos hcmd, haddr, hb', map_some]

theorem Holds.read {ev : MemEvent} {flags : UInt32}
    (hcmd : ev.cmd_ = .GetS ∨ ev.cmd_ = .GetX ∨ ev.cmd_ = .GetSX)
    (hstore : c.InStore kind (dataAddr ev) ev.size_.toNat) :
    ∃ b', (c.handleMemResponse fresh b (c.withLocalAddrs ev) flags).map
          (fun r => (dataOf r.1, r.2)) = some (if ev.queryFlag MemEvent.F_NORESPONSE then []
          else readFrom g (dataAddr ev).toNat ev.size_.toNat, b') ∧ c.Holds fresh kind b' g := by
  obtain ⟨b', hb', hholds⟩ := @Holds.getVector c fresh kind b g (dataAddr ev) hr
    hoffset hb ev.size_.toUInt64 (by rwa [toNat_toUInt64])
  rw [toNat_toUInt64] at hb'
  rw [← dataAddr_withLocalAddrs] at hb'
  rw [@handleMemResponse_of_read c fresh b (c.withLocalAddrs ev) _ _ _ hcmd hb',
    queryFlag_withLocalAddrs]
  by_cases hflag : ev.queryFlag MemEvent.F_NORESPONSE = true
  · exact ⟨b, by rw [if_pos hflag, if_pos hflag], hb⟩
  · exact ⟨b', by rw [if_neg hflag, if_neg hflag], hholds⟩

theorem Holds.flush {ev : MemEvent} {flags : UInt32}
    (hcmd : ev.cmd_ = .FlushLine ∨ ev.cmd_ = .FlushLineInv)
    (hstore : ev.payload_.length ≠ 0 →
      c.InStore kind ev.baseAddr_ (UInt32.ofNat ev.getPayload.length).toNat) :
    ∃ b', c.handleRequest fresh b ev flags = some ([], b') ∧ c.Holds fresh kind b'
        (if ev.payload_.length = 0 then g
        else writeFrom g ev.baseAddr_.toNat
          (ev.getPayload.take (UInt32.ofNat ev.getPayload.length).toNat)) := by
  have hflush : ∀ b', (c.handleMemResponse fresh b'
      { c.withLocalAddrs ev with cmd_ := .FlushLine } flags).map
        (fun r => (dataOf r.1, r.2)) = some ([], b') :=
    fun b' => handleMemResponse_of_flush rfl
  have hcmd' : (c.withLocalAddrs ev).cmd_ = ev.cmd_ := rfl
  have hpayload : (c.withLocalAddrs ev).payload_ = ev.payload_ := rfl
  have hrequest : ∀ b',
      (if ev.payload_.length = 0 then some b
        else (c.handleMemResponse fresh b (flushPut (c.withLocalAddrs ev))
          flags).map Prod.snd) = some b' →
      c.handleRequest fresh b ev flags = some ([], b') := by
    intro b' hfirst
    unfold handleRequest
    by_cases hempty : ev.payload_.length = 0
    · obtain rfl := some.inj ((if_pos hempty).symm.trans hfirst)
      rcases hcmd with hcmd | hcmd
      all_goals
        simp only [hcmd', hcmd]
        rw [hpayload, if_pos hempty]
        exact hflush b
    · rw [if_neg hempty] at hfirst
      rcases hcmd with hcmd | hcmd
      all_goals
        simp only [hcmd', hcmd]
        rw [hpayload, if_neg hempty, hfirst]
        exact hflush b'
  by_cases hempty : ev.payload_.length = 0
  · exact ⟨b, hrequest b (if_pos hempty), by rwa [if_pos hempty]⟩
  · have hsize : (flushPut (c.withLocalAddrs ev)).size_ =
        UInt32.ofNat ev.getPayload.length := rfl
    have hlength : (UInt32.ofNat ev.getPayload.length).toNat ≤
        ev.getPayload.length := by
      rw [UInt32.toNat_ofNat']
      exact Nat.mod_le _ _
    have hdata : (flushPut (c.withLocalAddrs ev)).getPayload = ev.getPayload := by
      change ev.getPayload ++ replicate
        ((UInt32.ofNat ev.getPayload.length).toNat - ev.getPayload.length) 0 = _
      rw [Nat.sub_eq_zero_of_le hlength, replicate_zero, append_nil]
    have haddr : (if (flushPut (c.withLocalAddrs ev)).queryFlag
          MemEvent.F_NONCACHEABLE then (flushPut (c.withLocalAddrs ev)).addr_
        else (flushPut (c.withLocalAddrs ev)).baseAddr_) =
        c.translateToLocal ev.baseAddr_ := by
      split <;> rfl
    obtain ⟨b', hwrite, hholds⟩ := @Holds.writeData_putM c fresh kind b g hr hoffset
      hb (flushPut (c.withLocalAddrs ev)) rfl _ haddr
      (by rw [hsize]; exact hstore hempty)
    rw [hdata, hsize] at hholds
    have hput := @handleMemResponse_of_write c fresh b
      (flushPut (c.withLocalAddrs ev)) flags b' (.inl rfl) hwrite
    have hput' : (c.handleMemResponse fresh b (flushPut (c.withLocalAddrs ev))
        flags).map Prod.snd = some b' := by
      have hsnd := congrArg (Option.map Prod.snd) hput
      rw [Option.map_map] at hsnd
      exact hsnd
    exact ⟨b', hrequest b' (by rw [if_neg hempty, hput']), by rwa [if_neg hempty]⟩

theorem Holds.dataStep {e : ControllerEvent} (he : c.Regular kind e) :
    ∃ b', c.dataStep fresh b e = some ((flatData g e).1, b') ∧
      c.Holds fresh kind b' (flatData g e).2 := by
  cases e with
  | init cmd addr payload =>
    by_cases hcmd : cmd = .Write
    · subst hcmd
      obtain ⟨hlength, hstore, hvalid⟩ := he rfl
      obtain ⟨b', hb', hholds⟩ := hb.processInitEvent hr hoffset hlength hstore hvalid
      exact ⟨b', by simp [MemController.dataStep, hb', flatData],
        by simpa [flatData] using hholds⟩
    · exact ⟨b, by simp [MemController.dataStep, MemController.processInitEvent,
        hcmd, flatData], by simpa [flatData, hcmd] using hb⟩
  | request ev flags =>
    have hcmd' : (c.withLocalAddrs ev).cmd_ = ev.cmd_ := rfl
    cases hcmd : ev.cmd_ <;> simp only [Regular, hcmd] at he <;>
      simp only [flatData, hcmd]
    case PutM =>
        have haddr : (if ((c.withLocalAddrs ev).setFlag
              MemEvent.F_NORESPONSE).queryFlag MemEvent.F_NONCACHEABLE then
            ((c.withLocalAddrs ev).setFlag MemEvent.F_NORESPONSE).addr_
            else ((c.withLocalAddrs ev).setFlag MemEvent.F_NORESPONSE).baseAddr_) =
            c.translateToLocal (dataAddr ev) := by
          rw [queryFlag_setFlag (by decide)]
          exact dataAddr_withLocalAddrs ev
        obtain ⟨b', hwrite, hholds⟩ := @Holds.writeData_putM c fresh kind b g hr
          hoffset hb ((c.withLocalAddrs ev).setFlag MemEvent.F_NORESPONSE) hcmd _
          haddr he
        refine ⟨b', ?_, hholds⟩
        simp only [MemController.dataStep, handleRequest, hcmd', hcmd]
        exact handleMemResponse_of_write (.inl hcmd) hwrite
    case Write =>
        obtain ⟨b', hwrite, hholds⟩ := @Holds.writeData_write c fresh kind b g hr
          hoffset hb (c.withLocalAddrs ev) hcmd _ rfl he
        refine ⟨b', ?_, hholds⟩
        simp only [MemController.dataStep, handleRequest, hcmd', hcmd]
        exact handleMemResponse_of_write (.inr hcmd) hwrite
    case GetS | GetX | GetSX =>
        obtain ⟨b', hb', hholds⟩ := @Holds.read c fresh kind b g hr hoffset hb ev
          flags (by simp [hcmd]) he
        refine ⟨b', ?_, hholds⟩
        simp only [MemController.dataStep, handleRequest, hcmd', hcmd]
        exact hb'
    case FlushLine =>
        exact hb.flush hr hoffset (.inl hcmd) he
    case FlushLineInv =>
        exact hb.flush hr hoffset (.inr hcmd) he
    case PutS =>
        exact ⟨b, by simp [MemController.dataStep, handleRequest, hcmd', hcmd], hb⟩
    case PutE =>
        exact ⟨b, by simp [MemController.dataStep, handleRequest, hcmd', hcmd], hb⟩

theorem Holds.answersOf {events : List ControllerEvent} (hevents : ∀ e ∈ events, c.Regular kind e) :
    ∃ replies, Library.answersOf (c.dataStep fresh) b events = some replies ∧
      Library.answersOf (fun g e => some (flatData g e)) g events = some replies := by
  refine answersOf_eq_of_simulation
    (R := fun b g => c.Holds fresh kind b g) ?_ hb hevents
  intro b g e hb he
  obtain ⟨b', hb', hholds⟩ := hb.dataStep hr hoffset he
  exact ⟨_, b', _, hb', rfl, hholds⟩

end

end Handlers

end MemController

end SstElements.MemHierarchy
