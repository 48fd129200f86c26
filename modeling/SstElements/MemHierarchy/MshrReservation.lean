import SstElements.MemHierarchy.MshrAccounting

/-!
# The entry reserved for forwarded requests

Whether an event was inserted as a forwarded request is not stored in its
entry.  `taggedStep` runs the same code on events that carry this flag; its
states project to the states of the plain run (`run_map_event`), so the flag can
be used to speak about the entries that are held.

The invariant `Accounted` ties the counter to the entries and bounds the
entries that were inserted as ordinary requests below the capacity.
-/

namespace SstElements.MemHierarchy

open Library Function Option

universe u v

section Projection

variable {ε : Type u} {β : Type v} (f : ε → β)

/-- Apply a function to the event of an entry. -/
def MSHREntry.map (e : MSHREntry ε) : MSHREntry β where
  body :=
    match e.body with
    | .event event => .event (f event)
    | .evict ptrs => .evict ptrs
    | .writeback downgrade => .writeback downgrade
  time := e.time
  needEvict := e.needEvict
  inProgress := e.inProgress
  profiled := e.profiled

/-- Apply a function to all events of a register. -/
def MSHRRegister.map (reg : MSHRRegister ε) : MSHRRegister β where
  entries := reg.entries.map (MSHREntry.map f)
  acksNeeded := reg.acksNeeded
  dataBuffer := reg.dataBuffer
  dataDirty := reg.dataDirty
  pendingRetries := reg.pendingRetries

/-- Apply a function to the event of a call. -/
def MSHROp.map : MSHROp ε → MSHROp β
  | .insertEvent addr event pos fwdRequest stallEvict =>
    .insertEvent addr (f event) pos fwdRequest stallEvict
  | .insertWriteback addr downgrade => .insertWriteback addr downgrade
  | .insertEviction oldAddr newAddr => .insertEviction oldAddr newAddr
  | .removeFront addr => .removeFront addr
  | .removeEntry addr index => .removeEntry addr index
  | .removeEvictPointer addr addrPtr => .removeEvictPointer addr addrPtr
  | .moveEntryToFront addr index => .moveEntryToFront addr index
  | .swapFrontEvent addr event => .swapFrontEvent addr (f event)
  | .addPendingRetry addr => .addPendingRetry addr
  | .removePendingRetry addr => .removePendingRetry addr
  | .setInProgress addr value => .setInProgress addr value
  | .setStalledForEvict addr set => .setStalledForEvict addr set
  | .setProfiled addr => .setProfiled addr
  | .incrementAcksNeeded addr => .incrementAcksNeeded addr
  | .decrementAcksNeeded addr => .decrementAcksNeeded addr
  | .setData addr data dirty => .setData addr data dirty
  | .clearData addr => .clearData addr
  | .setDataDirty addr dirty => .setDataDirty addr dirty

namespace MSHR

/-- Apply a function to all events. -/
def map (m : MSHR ε) : MSHR β where
  mshr_ := m.mshr_.mapValues (MSHRRegister.map f)
  size_ := m.size_
  maxSize_ := m.maxSize_

@[simp] theorem find_map (m : MSHR ε) (addr : Addr) :
    (m.map f).mshr_.find? addr = (m.mshr_.find? addr).map (MSHRRegister.map f) :=
  OrderedMap.find?_mapValues _ _ _

theorem map_setRegister (m : MSHR ε) (addr : Addr) (reg : MSHRRegister ε) :
    (m.setRegister addr reg).map f = (m.map f).setRegister addr (reg.map f) := by
  simp only [map, setRegister, OrderedMap.mapValues_insert]

@[simp] theorem sizeWithout_map (m : MSHR ε) (e : MSHREntry ε) :
    (m.map f).sizeWithout (e.map f) = m.sizeWithout e := by
  cases h : e.body <;>
    simp [sizeWithout, map, MSHREntry.map, MSHREntry.isEvent, MSHREntry.getEvent, h]

theorem map_setOrErase (m : MSHR ε) (addr : Addr) (reg : MSHRRegister ε)
    (entries : List (MSHREntry ε)) :
    (m.setOrErase addr reg entries).map f = (m.map f).setOrErase addr (reg.map f)
        (entries.map (MSHREntry.map f)) := by
  cases entries with
  | nil =>
    simp [setOrErase, map, OrderedMap.mapValues_erase]
  | cons e rest =>
    simp [setOrErase, map_setRegister, MSHRRegister.map]

theorem removeEntry_map (m : MSHR ε) (addr : Addr) (index : Nat) :
    (m.map f).removeEntry addr index = (m.removeEntry addr index).map (map f) := by
  simp only [removeEntry, find_map]
  cases m.mshr_.find? addr with
  | none =>
    rfl
  | some reg =>
    cases hget : reg.entries[index]? with
    | none =>
      simp [MSHRRegister.map, hget]
    | some e =>
      simp only [map_some, MSHRRegister.map, List.getElem?_map,
        hget, sizeWithout_map, map_setOrErase, List.eraseIdx_map]
      rfl

theorem modifyRegister_map
    {g : MSHRRegister ε → MSHRRegister ε} {g' : MSHRRegister β → MSHRRegister β}
    (hg : ∀ reg, g' (reg.map f) = (g reg).map f) (m : MSHR ε) (addr : Addr) :
    (m.map f).modifyRegister addr g' = (m.modifyRegister addr g).map (map f) := by
  simp only [modifyRegister, find_map]
  cases m.mshr_.find? addr with
  | none =>
    rfl
  | some reg =>
    simp [map_setRegister, hg]

theorem modifyFront_map {g : MSHREntry ε → MSHREntry ε} {g' : MSHREntry β → MSHREntry β}
    (hg : ∀ e, g' (e.map f) = (g e).map f) (m : MSHR ε) (addr : Addr) :
    (m.map f).modifyFront addr g' = (m.modifyFront addr g).map (map f) := by
  simp only [modifyFront, find_map]
  cases m.mshr_.find? addr with
  | none =>
    rfl
  | some reg =>
    cases hentries : reg.entries with
    | nil =>
      simp [MSHRRegister.map, hentries]
    | cons front rest =>
      simp [MSHRRegister.map, hentries, map_setRegister, hg]

theorem removeEvictPointer_map (m : MSHR ε) (addr addrPtr : Addr) :
    (m.map f).removeEvictPointer addr addrPtr =
      (m.removeEvictPointer addr addrPtr).map (Prod.map id (map f)) := by
  simp only [removeEvictPointer, find_map]
  cases m.mshr_.find? addr with
  | none =>
    rfl
  | some reg =>
    cases hentries : reg.entries with
    | nil =>
      simp [MSHRRegister.map, hentries]
    | cons front rest =>
      cases hbody : front.body with
      | event event =>
        simp [MSHRRegister.map, MSHREntry.map, hentries, hbody]
      | evict ptrs =>
        have hset := map_setRegister f m addr
          { reg with entries := { front with
              body := .evict (ptrs.filter (fun a => a ≠ addrPtr)) } :: rest }
        simp only [MSHRRegister.map, MSHREntry.map, List.map_cons]
          at hset
        simp only [map_some, MSHRRegister.map, hentries,
          List.map_cons, MSHREntry.map, hbody, ← hset,
          removeFront_eq_removeEntry, removeEntry_map, map_map]
        split <;> simp [map_map, comp_def]
      | writeback downgrade =>
        cases rest with
        | nil =>
          simp [MSHRRegister.map, MSHREntry.map, hentries, hbody]
        | cons second more =>
          cases hbody' : second.body with
          | event event =>
            simp [MSHRRegister.map, MSHREntry.map, hentries, hbody, hbody']
          | writeback downgrade' =>
            simp [MSHRRegister.map, MSHREntry.map, hentries, hbody, hbody']
          | evict ptrs =>
            have hset := map_setRegister f m addr
              { reg with entries := front :: { second with
                  body := .evict (ptrs.filter (fun a => a ≠ addrPtr)) } :: more }
            simp only [MSHRRegister.map, MSHREntry.map, List.map_cons, hbody] at hset
            simp only [map_some, MSHRRegister.map, hentries,
              List.map_cons, MSHREntry.map, hbody, hbody', ← hset,
              removeEntry_map, map_map]
            split <;> simp [map_map, comp_def]

theorem moveEntryToFront_map (m : MSHR ε) (addr : Addr) (index : Nat) :
    (m.map f).moveEntryToFront addr index = (m.moveEntryToFront addr index).map (map f) := by
  simp only [moveEntryToFront, find_map]
  cases m.mshr_.find? addr with
  | none =>
    rfl
  | some reg =>
    cases hget : reg.entries[index]? with
    | none =>
      simp [MSHRRegister.map, hget]
    | some e =>
      simp [MSHRRegister.map, hget, map_setRegister, List.eraseIdx_map]

theorem insertWriteback_map (m : MSHR ε) (addr : Addr) (downgrade : Bool) (now : SimTime) :
    (m.map f).insertWriteback addr downgrade now =
      (m.insertWriteback addr downgrade now).map f := by
  simp only [insertWriteback, find_map]
  cases m.mshr_.find? addr <;>
    simp [map_setRegister, MSHRRegister.map, MSHRRegister.new, MSHREntry.ofWriteback, MSHREntry.map]

theorem pushEviction_map (entries : List (MSHREntry ε)) (newAddr : Addr) (now : SimTime) :
    pushEviction (entries.map (MSHREntry.map f)) newAddr now =
      (pushEviction entries newAddr now).map (MSHREntry.map f) := by
  simp only [pushEviction, List.getLast?_map]
  cases entries.getLast? with
  | none =>
    rfl
  | some last =>
    cases hbody : last.body <;>
      simp [MSHREntry.map, MSHREntry.ofEviction, hbody]

section

variable (m : MSHR ε)
include m

theorem insertEviction_map (oldAddr newAddr : Addr) (now : SimTime) :
    (m.map f).insertEviction oldAddr newAddr now =
      (m.insertEviction oldAddr newAddr now).map f := by
  simp only [insertEviction, find_map]
  cases m.mshr_.find? oldAddr with
  | none =>
    simp [map_setRegister, MSHRRegister.map, MSHRRegister.new,
      MSHREntry.ofEviction, MSHREntry.map]
  | some reg =>
    simp [map_setRegister, MSHRRegister.map, pushEviction_map]

theorem insertEvent_map (addr : Addr) (event : ε) (pos : Int) (fwdRequest stallEvict : Bool)
    (now : SimTime) :
    (m.map f).insertEvent addr (f event) pos fwdRequest stallEvict now = Prod.map id (map f)
        (m.insertEvent addr event pos fwdRequest stallEvict now) := by
  have hset : ∀ reg : MSHRRegister ε,
      (({ m with size_ := m.size_ + 1 } : MSHR ε).setRegister addr reg).map f =
        ({ m.map f with size_ := m.size_ + 1 } : MSHR β).setRegister addr
          (reg.map f) :=
    fun reg => map_setRegister f _ addr reg
  have hsize : (m.map f).size_ = m.size_ := rfl
  have hmax : (m.map f).maxSize_ = m.maxSize_ := rfl
  simp only [insertEvent, find_map, hsize, hmax]
  split
  · rfl
  · cases m.mshr_.find? addr with
    | none =>
      simp [hset, hmax, MSHRRegister.map, MSHRRegister.new, MSHREntry.ofEvent, MSHREntry.map]
    | some reg =>
      simp only [map_some, MSHRRegister.map, List.length_map]
      split
      · simp [hset, hmax, MSHRRegister.map, MSHREntry.ofEvent, MSHREntry.map]
      · simp [hset, hmax, MSHRRegister.map, MSHREntry.ofEvent, MSHREntry.map, List.map_insertIdx]

theorem swapFrontEvent_map (addr : Addr) (event : ε) (now : SimTime) :
    (m.map f).swapFrontEvent addr (f event) now = (m.swapFrontEvent addr event now).map
        (Prod.map (Option.map f) (map f)) := by
  simp only [swapFrontEvent, find_map]
  cases m.mshr_.find? addr with
  | none =>
    rfl
  | some reg =>
    cases hentries : reg.entries with
    | nil =>
      simp [MSHRRegister.map, hentries]
    | cons front rest =>
      cases hbody : front.body <;>
        simp [MSHRRegister.map, MSHREntry.map, MSHREntry.swapEvent,
          hentries, hbody, map_setRegister]

theorem incrementAcksNeeded_map (addr : Addr) :
    (m.map f).incrementAcksNeeded addr = (m.incrementAcksNeeded addr).map f := by
  simp only [incrementAcksNeeded, find_map, map_setRegister]
  cases m.mshr_.find? addr <;>
    simp [MSHRRegister.map, MSHRRegister.new]

theorem decrementAcksNeeded_map (addr : Addr) :
    (m.map f).decrementAcksNeeded addr =
      (m.decrementAcksNeeded addr).map (Prod.map id (map f)) := by
  simp only [decrementAcksNeeded, find_map]
  cases m.mshr_.find? addr with
  | none =>
    rfl
  | some reg =>
    simp only [map_some, MSHRRegister.map]
    split <;> simp [map_setRegister, MSHRRegister.map]

theorem step_map (now : SimTime) (op : MSHROp ε) :
    (m.map f).step (now, op.map f) = (m.step (now, op)).map (map f) := by
  cases op with
  | insertEvent addr event pos fwdRequest stallEvict =>
    simp [step, MSHROp.map, insertEvent_map]
  | insertWriteback addr downgrade =>
    simp [step, MSHROp.map, insertWriteback_map]
  | insertEviction oldAddr newAddr =>
    simp [step, MSHROp.map, insertEviction_map]
  | removeFront addr =>
    simp [step, MSHROp.map, removeFront_eq_removeEntry, removeEntry_map]
  | removeEntry addr index =>
    simp [step, MSHROp.map, removeEntry_map]
  | removeEvictPointer addr addrPtr =>
    simp [step, MSHROp.map, removeEvictPointer_map, Option.map_map, comp_def]
  | moveEntryToFront addr index =>
    simp [step, MSHROp.map, moveEntryToFront_map]
  | swapFrontEvent addr event =>
    simp [step, MSHROp.map, swapFrontEvent_map, Option.map_map, comp_def]
  | addPendingRetry addr =>
    exact modifyRegister_map f (fun _ => rfl) m addr
  | removePendingRetry addr =>
    exact modifyRegister_map f (fun _ => rfl) m addr
  | setInProgress addr value =>
    exact modifyFront_map f (fun _ => rfl) m addr
  | setStalledForEvict addr set =>
    exact modifyFront_map f (fun _ => rfl) m addr
  | setProfiled addr =>
    exact modifyFront_map f (fun _ => rfl) m addr
  | incrementAcksNeeded addr =>
    simp [step, MSHROp.map, incrementAcksNeeded_map]
  | decrementAcksNeeded addr =>
    simp [step, MSHROp.map, decrementAcksNeeded_map, map_map, comp_def]
  | setData addr data dirty =>
    exact modifyRegister_map f (fun _ => rfl) m addr
  | clearData addr =>
    exact modifyRegister_map f (fun _ => rfl) m addr
  | setDataDirty addr dirty =>
    exact modifyRegister_map f (fun _ => rfl) m addr

end

end MSHR

end Projection

/-- An event with the kind of request it was inserted as. -/
structure Tagged (ε : Type u) where
  event : ε
  fwdRequest : Bool
deriving DecidableEq, Repr

namespace MSHR

variable {ε : Type u}

section Tags

/-- The tag that a call gives its event; a swap leaves the entry's tag in place. -/
def tagFor (m : MSHR (Tagged ε)) : MSHROp ε → Bool
  | .insertEvent _ _ _ fwdRequest _ => fwdRequest
  | .swapFrontEvent addr _ =>
    ((m.getFront addr).bind MSHREntry.getEvent).any (fun e => e.fwdRequest)
  | _ => false

/-- One call, on events that carry their tags. -/
def taggedStep (m : MSHR (Tagged ε)) (call : SimTime × MSHROp ε) : Option (MSHR (Tagged ε)) :=
  m.step (call.1, call.2.map (fun event => ⟨event, m.tagFor call.2⟩))

theorem taggedStep_map_event (m : MSHR (Tagged ε)) (call : SimTime × MSHROp ε) :
    (m.map Tagged.event).step call = (m.taggedStep call).map (map Tagged.event) := by
  obtain ⟨now, op⟩ := call
  have hop : (op.map (fun event => (⟨event, m.tagFor op⟩ : Tagged ε))).map
      Tagged.event = op := by
    cases op <;> rfl
  rw [taggedStep, ← step_map, hop]

theorem run_map_event {m : MSHR (Tagged ε)} {t : MSHR ε} {calls : List (SimTime × MSHROp ε)}
    (hrun : runOps step (m.map Tagged.event) calls = some t) :
    ∃ tagged, runOps taggedStep m calls = some tagged ∧ tagged.map Tagged.event = t := by
  induction calls generalizing m with
  | nil =>
    exact ⟨m, rfl, by simpa using hrun⟩
  | cons call rest ih =>
    obtain ⟨mid, hmid, hrest⟩ := runOps_cons_iff.1 hrun
    rw [taggedStep_map_event] at hmid
    obtain ⟨mid', hmid', rfl⟩ := map_eq_some_iff.1 hmid
    obtain ⟨tagged, htagged, rfl⟩ := ih hrest
    exact ⟨tagged, runOps_cons_iff.2 ⟨mid', hmid', htagged⟩, rfl⟩

end Tags

section Invariant

/-- The entry holds an ordinary request. -/
def ordinary (e : Tagged ε) : Bool := !e.fwdRequest

/--
The counter of an MSHR of capacity `maxSize` counts the Event entries, and
ordinary requests leave room for a forwarded one.
-/
structure Accounted (maxSize : Int) (m : MSHR (Tagged ε)) : Prop where
  maxSize_eq : m.maxSize_ = maxSize
  size_eq : m.size_ = m.eventCount
  size_le : m.size_ ≤ maxSize
  ordinary_lt : (m.count ordinary : Int) < maxSize

variable {maxSize : Int}
variable {m t : MSHR (Tagged ε)} {event : ε}

section

variable (h : Accounted maxSize m)
include h

theorem Accounted.of_keepsCounts (hkeep : KeepsCounts m t) :
    Accounted maxSize t where
  maxSize_eq := hkeep.maxSize.trans h.maxSize_eq
  size_eq := by rw [hkeep.size, h.size_eq, eventCount, eventCount, hkeep.count]
  size_le := by
    rw [hkeep.size]
    exact h.size_le
  ordinary_lt := by
    rw [hkeep.count]
    exact h.ordinary_lt

theorem Accounted.of_removes {e : MSHREntry (Tagged ε)} (hrem : Removes m t e) :
    Accounted maxSize t := by
  have hall := hrem.count (fun _ => true)
  have hord := hrem.count ordinary
  have hsize := h.size_eq
  have hle := h.size_le
  have hlt := h.ordinary_lt
  have hnew := hrem.size
  have hone : (e.isEvent = true ∧ countOf (fun _ => true) e = 1) ∨
      (e.isEvent = false ∧ countOf (fun _ => true) e = 0) := by
    cases hget : e.getEvent <;>
      simp [MSHREntry.isEvent, countOf, hget]
  rw [sizeWithout] at hnew
  rw [eventCount] at hsize
  refine ⟨hrem.maxSize.trans h.maxSize_eq, ?_, ?_, by omega⟩
  · rw [eventCount]
    rcases hone with ⟨hev, hc⟩ | ⟨hev, hc⟩
    · simp only [hev, if_true] at hnew
      omega
    · simp only [hev, Bool.false_eq_true, if_false] at hnew
      omega
  · split at hnew <;> omega

theorem Accounted.of_inserts {fwdRequest : Bool}
    (hins : Inserts m t (⟨event, fwdRequest⟩ : Tagged ε) fwdRequest) : Accounted maxSize t := by
  have hall := hins.count (fun _ => true)
  have hord := hins.count ordinary
  have hsize := h.size_eq
  have hle := h.size_le
  have hlt := h.ordinary_lt
  have hnew := hins.size
  have hfull := hins.not_full
  have hmax := h.maxSize_eq
  rw [eventCount] at hsize
  simp only [if_true] at hall
  refine ⟨hins.maxSize.trans hmax, ?_, by omega, ?_⟩
  · rw [eventCount]
    omega
  · cases hfwd : fwdRequest with
    | true =>
      have hzero : ordinary (⟨event, fwdRequest⟩ : Tagged ε) = false := by simp [ordinary, hfwd]
      rw [hzero, if_neg Bool.false_ne_true] at hord
      omega
    | false =>
      have hres := hins.not_reserved hfwd
      have hbound : t.count ordinary ≤ t.count (fun _ => true) :=
        count_le_count (fun _ _ => rfl) t
      omega

theorem Accounted.of_swap {addr : Addr} {now : SimTime} {old : Option (Tagged ε)}
    (hswap : m.swapFrontEvent addr
      ⟨event, m.tagFor (.swapFrontEvent addr event)⟩ now = some (old, t)) :
    Accounted maxSize t := by
  obtain ⟨hsize, hmax, hold, hcount⟩ := swapFrontEvent_spec hswap
  have hall := hcount (fun _ => true)
  have hord := hcount ordinary
  have hsame : (if old.any ordinary then 1 else 0) =
      if old.isSome && ordinary
        (⟨event, m.tagFor (.swapFrontEvent addr event)⟩ : Tagged ε)
        then 1 else 0 := by
    rw [tagFor, ← hold]
    cases old <;> rfl
  have hany : (old.any fun _ => true) = old.isSome := by cases old <;> rfl
  rw [hany, Bool.and_true] at hall
  have hlt := h.ordinary_lt
  refine ⟨hmax.trans h.maxSize_eq, ?_, ?_, by omega⟩
  · rw [hsize, h.size_eq, eventCount, eventCount]
    omega
  · rw [hsize]
    exact h.size_le

end

/-- Every call keeps the reservation's account. -/
theorem Accounted.step {m t : MSHR (Tagged ε)} {call : SimTime × MSHROp ε} (h : Accounted maxSize m)
    (hstep : m.taggedStep call = some t) :
    Accounted maxSize t := by
  obtain ⟨now, op⟩ := call
  cases op with
  | insertEvent addr event pos fwdRequest stallEvict =>
    simp only [taggedStep, MSHROp.map, tagFor, MSHR.step, some.injEq] at hstep
    rcases insertEvent_spec m addr (⟨event, fwdRequest⟩ : Tagged ε) pos
      fwdRequest stallEvict now with ⟨heq, -⟩ | ⟨i, t', heq, -, hins⟩
    · rw [heq] at hstep
      exact hstep ▸ h
    · rw [heq] at hstep
      exact hstep ▸ h.of_inserts hins
  | insertWriteback addr downgrade =>
    exact h.of_keepsCounts
      (some.inj hstep ▸ insertWriteback_keepsCounts m addr downgrade now)
  | insertEviction oldAddr newAddr =>
    exact h.of_keepsCounts
      (some.inj hstep ▸ insertEviction_keepsCounts m oldAddr newAddr now)
  | removeFront addr =>
    have hrem : m.removeFront addr = some t := hstep
    rw [removeFront_eq_removeEntry] at hrem
    obtain ⟨e, -, hremoves⟩ := removeEntry_removes hrem
    exact h.of_removes hremoves
  | removeEntry addr index =>
    obtain ⟨e, -, hremoves⟩ := removeEntry_removes hstep
    exact h.of_removes hremoves
  | removeEvictPointer addr addrPtr =>
    obtain ⟨⟨retry, t'⟩, hrem, rfl⟩ := map_eq_some_iff.1 hstep
    exact h.of_keepsCounts (removeEvictPointer_keepsCounts hrem)
  | moveEntryToFront addr index =>
    exact h.of_keepsCounts (moveEntryToFront_keepsCounts hstep)
  | swapFrontEvent addr event =>
    obtain ⟨⟨old, t'⟩, hswap, rfl⟩ := map_eq_some_iff.1 hstep
    exact h.of_swap hswap
  | addPendingRetry addr =>
    exact h.of_keepsCounts (modifyRegister_keepsCounts hstep (fun _ => rfl))
  | removePendingRetry addr =>
    exact h.of_keepsCounts (modifyRegister_keepsCounts hstep (fun _ => rfl))
  | setInProgress addr value =>
    exact h.of_keepsCounts (modifyFront_keepsCounts hstep (fun _ => rfl))
  | setStalledForEvict addr set =>
    exact h.of_keepsCounts (modifyFront_keepsCounts hstep (fun _ => rfl))
  | setProfiled addr =>
    exact h.of_keepsCounts (modifyFront_keepsCounts hstep (fun _ => rfl))
  | incrementAcksNeeded addr =>
    exact h.of_keepsCounts
      (some.inj hstep ▸ incrementAcksNeeded_keepsCounts m addr)
  | decrementAcksNeeded addr =>
    obtain ⟨⟨last, t'⟩, hdec, rfl⟩ := map_eq_some_iff.1 hstep
    exact h.of_keepsCounts (decrementAcksNeeded_keepsCounts hdec)
  | setData addr data dirty =>
    exact h.of_keepsCounts (modifyRegister_keepsCounts hstep (fun _ => rfl))
  | clearData addr =>
    exact h.of_keepsCounts (modifyRegister_keepsCounts hstep (fun _ => rfl))
  | setDataDirty addr dirty =>
    exact h.of_keepsCounts (modifyRegister_keepsCounts hstep (fun _ => rfl))

theorem accounted_new (hcap : 1 ≤ maxSize) : Accounted maxSize (new maxSize : MSHR (Tagged ε)) where
  maxSize_eq := rfl
  size_eq := rfl
  size_le := by
    show (0 : Int) ≤ maxSize
    omega
  ordinary_lt := by
    show (0 : Int) < maxSize
    omega

end Invariant

section Reservation

variable {maxSize : Int}

/-- All held entries that are events were inserted as ordinary requests. -/
def OnlyOrdinary (m : MSHR (Tagged ε)) : Prop :=
  ∀ addr, ∀ entry ∈ m.entriesAt addr, ∀ event ∈ entry.getEvent,
    event.fwdRequest = false

theorem count_map {β : Type v} (f : ε → β) (q : β → Bool) (m : MSHR ε) :
    (m.map f).count q = m.count (fun event => q (f event)) := by
  have hentry : ∀ e : MSHREntry ε,
      ((e.map f).getEvent.any q) = e.getEvent.any (fun ev => q (f ev)) := by
    intro e
    cases hbody : e.body <;>
      simp [MSHREntry.map, MSHREntry.getEvent, hbody]
  simp [count, map, OrderedMap.total, OrderedMap.mapValues, countIn,
    MSHRRegister.map, List.countP_map, comp_def, hentry]

theorem count_ordinary_of_onlyOrdinary {m : MSHR (Tagged ε)} (h : OnlyOrdinary m) :
    m.count ordinary = m.eventCount := by
  unfold eventCount count
  refine OrderedMap.total_congr ?_
  rintro ⟨addr, reg⟩ hmem
  have hat := entriesAt_of_find ((OrderedMap.mem_entries_iff _ _ _).1 hmem)
  refine List.countP_congr ?_
  intro e he
  rw [← hat] at he
  cases hget : e.getEvent with
  | none =>
    rfl
  | some event =>
    simp [ordinary, h addr e he event hget]

theorem insertEvent_ordinary_lt {m : MSHR ε} (hmax : m.maxSize_ = maxSize) (hle : m.size_ ≤ maxSize)
    (addr : Addr) (event : ε) (pos : Int) (stallEvict : Bool) (now : SimTime)
    (hins : (m.insertEvent addr event pos false stallEvict now).1 ≠ -1) :
    (m.insertEvent addr event pos false stallEvict now).2.getSize < maxSize := by
  rcases insertEvent_spec m addr event pos false stallEvict now with
    ⟨heq, -⟩ | ⟨i, t, heq, -, hinserts⟩
  · rw [heq] at hins
    exact absurd rfl hins
  · rw [heq]
    have hsize := hinserts.size
    have hfull := hinserts.not_full
    have hres := hinserts.not_reserved rfl
    show t.size_ < maxSize
    omega

/--
Accounting of every run of calls on an MSHR of capacity at least one: the
counter is the number of Event entries and at most the capacity; an ordinary
insertion leaves room; with only ordinary requests held a forwarded one is
accepted; an insertion is refused without effect or puts the event at the
returned index and moves nothing else.
-/
theorem mshr_accounting {calls : List (SimTime × MSHROp ε)} {m : MSHR ε}
    (hcap : 1 ≤ maxSize)
    (hrun : runOps step (new maxSize) calls = some m) :
    m.getSize = m.eventCount ∧ m.getSize ≤ maxSize ∧
    (∀ addr event pos stallEvict now,
      (m.insertEvent addr event pos false stallEvict now).1 ≠ -1 →
        (m.insertEvent addr event pos false stallEvict now).2.getSize < maxSize) ∧
    (∃ tagged : MSHR (Tagged ε),
      runOps taggedStep (new maxSize) calls = some tagged ∧
      tagged.map Tagged.event = m ∧
      (OnlyOrdinary tagged →
        ∀ addr event pos stallEvict now,
          (m.insertEvent addr event pos true stallEvict now).1 ≠ -1)) ∧
    (∀ addr event pos fwdRequest stallEvict now,
      ((m.insertEvent addr event pos fwdRequest stallEvict now).1 = -1 →
        (m.insertEvent addr event pos fwdRequest stallEvict now).2 = m) ∧
      ((m.insertEvent addr event pos fwdRequest stallEvict now).1 ≠ -1 →
        ∃ i : Nat,
          (m.insertEvent addr event pos fwdRequest stallEvict now).1 = i ∧
          InsertsAt m
            (m.insertEvent addr event pos fwdRequest stallEvict now).2
            addr (MSHREntry.ofEvent event stallEvict now) i)) := by
  have hrun' : runOps step ((new maxSize : MSHR (Tagged ε)).map Tagged.event)
      calls = some m := hrun
  obtain ⟨tagged, htagged, rfl⟩ := run_map_event hrun'
  have hacc : Accounted maxSize tagged :=
    runOps_invariant (fun _ _ _ h hstep => Accounted.step h hstep)
      (accounted_new hcap) htagged
  have hmax : (tagged.map Tagged.event).maxSize_ = maxSize := hacc.maxSize_eq
  have hle : (tagged.map Tagged.event).size_ ≤ maxSize := hacc.size_le
  refine ⟨?_, hle, ?_, ⟨tagged, htagged, rfl, ?_⟩, ?_⟩
  · rw [eventCount, count_map]
    exact hacc.size_eq
  · intro addr event pos stallEvict now
    exact insertEvent_ordinary_lt hmax hle addr event pos stallEvict now
  · intro honly addr event pos stallEvict now
    have hcount := count_ordinary_of_onlyOrdinary honly
    have hlt := hacc.ordinary_lt
    have hsize : (tagged.map Tagged.event).size_ = tagged.eventCount := hacc.size_eq
    rcases insertEvent_spec (tagged.map Tagged.event) addr event pos true
      stallEvict now with ⟨-, hfull | hfull⟩ | ⟨i, t, heq, -, -⟩
    · omega
    · cases hfull.1
    · rw [heq]
      exact fun h => absurd h (by simp)
  · intro addr event pos fwdRequest stallEvict now
    rcases insertEvent_spec (tagged.map Tagged.event) addr event pos fwdRequest
      stallEvict now with ⟨heq, -⟩ | ⟨i, t, heq, hat, -⟩
    · rw [heq]
      exact ⟨fun _ => rfl, fun h => absurd rfl h⟩
    · rw [heq]
      refine ⟨fun h => absurd h (by simp), fun _ => ⟨i, rfl, hat⟩⟩

/-- The accounting after an eviction, two insertions and a removal. -/
theorem mshr_accounting_run :
    ∃ m : MSHR Nat,
      runOps step (new 2)
        [(0, .insertEvent 64 7 (-1) false false), (1, .insertEviction 64 128),
          (2, .insertEvent 64 8 0 true false), (3, .removeFront 64)] = some m ∧
      m.getSize = m.eventCount ∧ m.getSize ≤ 2 ∧
      (m.insertEvent 64 9 (-1) true false 4).1 = 2 := by
  obtain ⟨m, hrun⟩ : ∃ m : MSHR Nat,
      runOps step (new 2)
        [(0, .insertEvent 64 7 (-1) false false), (1, .insertEviction 64 128),
          (2, .insertEvent 64 8 0 true false), (3, .removeFront 64)] = some m :=
    ⟨_, rfl⟩
  have h := mshr_accounting (by decide) hrun
  refine ⟨m, hrun, h.1, h.2.1, ?_⟩
  cases hrun
  rfl

end Reservation

end MSHR

end SstElements.MemHierarchy
