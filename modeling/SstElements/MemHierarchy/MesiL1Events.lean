import SstElements.MemHierarchy.MesiL1Frames
import SstElements.MemHierarchy.MshrAccounting

/-!
# The events of each address

`eventsAt` lists the events that an address waits for, in order.  Each call of
the MSHR keeps these lists, adds one event to one of them, or takes the first
one off.

`Filed` says where the events of a manager are: a pointer that was never handed
out is dangling, and an event of the MSHR waits at its own base address.  Every
call keeps this, also one that leaves a dangling pointer behind.
-/

namespace SstElements.MemHierarchy

section Addresses

open Library List Option

universe u

namespace MSHR

variable {ε : Type u}

def eventsIn (entries : List (MSHREntry ε)) : List ε := entries.filterMap MSHREntry.getEvent

/-- The events that wait at an address. -/
def eventsAt (m : MSHR ε) (addr : Addr) : List ε := eventsIn (m.entriesAt addr)

/-- The call keeps the counter and the events of every address. -/
structure KeepsEvents (m t : MSHR ε) : Prop where
  size : t.size_ = m.size_
  eventsAt : ∀ a, t.eventsAt a = m.eventsAt a

theorem KeepsEvents.trans {m mid t : MSHR ε} (h : KeepsEvents m mid) (h' : KeepsEvents mid t) :
    KeepsEvents m t :=
  ⟨h'.size.trans h.size, fun a => (h'.eventsAt a).trans (h.eventsAt a)⟩

section Registers

variable {m : MSHR ε} {addr : Addr}

theorem entriesAt_setRegister_of_ne (m : MSHR ε) {addr a : Addr} (reg : MSHRRegister ε)
    (h : a ≠ addr) :
    (m.setRegister addr reg).entriesAt a = m.entriesAt a := by
  simp only [entriesAt, find_setRegister_of_ne m reg h]

theorem entriesAt_setOrErase_self (m : MSHR ε) (addr : Addr) (reg : MSHRRegister ε)
    (entries : List (MSHREntry ε)) :
    (m.setOrErase addr reg entries).entriesAt addr = entries := by
  cases entries with
  | nil =>
    simp [setOrErase, entriesAt]
  | cons e rest =>
    exact entriesAt_setRegister_self m addr _

theorem entriesAt_setOrErase_of_ne (m : MSHR ε) {addr a : Addr} (reg : MSHRRegister ε)
    (entries : List (MSHREntry ε)) (h : a ≠ addr) :
    (m.setOrErase addr reg entries).entriesAt a = m.entriesAt a := by
  cases entries with
  | nil =>
    simp [setOrErase, entriesAt, OrderedMap.find?_erase_of_ne _ h]
  | cons e rest =>
    exact entriesAt_setRegister_of_ne m _ h

theorem keepsEvents_setRegister {reg : MSHRRegister ε}
    (h : eventsIn reg.entries = m.eventsAt addr) :
    KeepsEvents m (m.setRegister addr reg) where
  size := rfl
  eventsAt := by
    intro a
    by_cases ha : a = addr
    · subst a
      rw [MSHR.eventsAt, entriesAt_setRegister_self]
      exact h
    · rw [MSHR.eventsAt, entriesAt_setRegister_of_ne m reg ha]
      rfl

end Registers

section Calls

variable {m t : MSHR ε} {addr : Addr}

/-- The first entry of an address is gone; all others are as before. -/
structure RemovesFront (m t : MSHR ε) (addr : Addr) (front : MSHREntry ε) : Prop where
  size : t.size_ = m.sizeWithout front
  entriesAt : m.entriesAt addr = front :: t.entriesAt addr
  others : ∀ a, a ≠ addr → t.entriesAt a = m.entriesAt a

theorem removeFront_spec (h : m.removeFront addr = some t) :
    ∃ front, RemovesFront m t addr front := by
  simp only [removeFront] at h
  cases hfind : m.mshr_.find? addr with
  | none =>
    simp [hfind] at h
  | some reg =>
    cases hentries : reg.entries with
    | nil =>
      simp [hfind, hentries] at h
    | cons front rest =>
      simp only [hfind, hentries, some.injEq] at h
      subst h
      refine ⟨front, setOrErase_size _ _ _ _, ?_, ?_⟩
      · rw [entriesAt_setOrErase_self, entriesAt_of_find hfind, hentries]
      · intro a ha
        exact entriesAt_setOrErase_of_ne _ _ _ ha

theorem modifyRegister_entriesAt {f : MSHRRegister ε → MSHRRegister ε}
    (h : m.modifyRegister addr f = some t) (hf : ∀ reg, (f reg).entries = reg.entries) :
    t.size_ = m.size_ ∧ ∀ a, t.entriesAt a = m.entriesAt a := by
  obtain ⟨reg, hfind, rfl⟩ := map_eq_some_iff.1 h
  refine ⟨rfl, fun a => ?_⟩
  by_cases ha : a = addr
  · subst a
    rw [entriesAt_setRegister_self, hf, entriesAt_of_find hfind]
  · exact entriesAt_setRegister_of_ne m _ ha

theorem removePendingRetry_entriesAt (h : m.removePendingRetry addr = some t) :
    t.size_ = m.size_ ∧ ∀ a, t.entriesAt a = m.entriesAt a :=
  modifyRegister_entriesAt h (fun _ => rfl)

theorem keepsEvents_of_entriesAt (h : t.size_ = m.size_ ∧ ∀ a, t.entriesAt a = m.entriesAt a) :
    KeepsEvents m t :=
  ⟨h.1, fun a => by rw [MSHR.eventsAt, h.2 a]; rfl⟩

theorem modifyFront_keepsEvents {f : MSHREntry ε → MSHREntry ε} (h : m.modifyFront addr f = some t)
    (hf : ∀ e, (f e).getEvent = e.getEvent) :
    KeepsEvents m t := by
  simp only [modifyFront] at h
  cases hfind : m.mshr_.find? addr with
  | none =>
    simp [hfind] at h
  | some reg =>
    cases hentries : reg.entries with
    | nil =>
      simp [hfind, hentries] at h
    | cons front rest =>
      simp only [hfind, hentries, some.injEq] at h
      subst h
      refine keepsEvents_setRegister ?_
      rw [MSHR.eventsAt, entriesAt_of_find hfind, hentries]
      simp only [eventsIn, filterMap_cons, hf front]

theorem insertWriteback_keepsEvents (m : MSHR ε) (addr : Addr) (downgrade : Bool) (now : SimTime) :
    KeepsEvents m (m.insertWriteback addr downgrade now) := by
  simp only [insertWriteback]
  cases hfind : m.mshr_.find? addr with
  | none =>
    refine keepsEvents_setRegister ?_
    rw [MSHR.eventsAt, entriesAt_of_not_find hfind]
    rfl
  | some reg =>
    refine keepsEvents_setRegister ?_
    rw [MSHR.eventsAt, entriesAt_of_find hfind]
    rfl

theorem eventsIn_pushEviction (entries : List (MSHREntry ε)) (newAddr : Addr) (now : SimTime) :
    eventsIn (pushEviction entries newAddr now) = eventsIn entries := by
  simp only [pushEviction]
  cases hlast : entries.getLast? with
  | none =>
    rw [getLast?_eq_none_iff.1 hlast]
    rfl
  | some last =>
    cases hbody : last.body with
    | event event =>
      simp [hbody, eventsIn, MSHREntry.ofEviction, MSHREntry.getEvent]
    | writeback downgrade =>
      simp [hbody, eventsIn, MSHREntry.ofEviction, MSHREntry.getEvent]
    | evict ptrs =>
      have hsplit : entries.dropLast ++ [last] = entries := dropLast_append_getLast? last hlast
      simp only [hbody]
      rw [← hsplit]
      simp [eventsIn, MSHREntry.getEvent, hbody]

theorem insertEviction_keepsEvents (m : MSHR ε) (oldAddr newAddr : Addr) (now : SimTime) :
    KeepsEvents m (m.insertEviction oldAddr newAddr now) := by
  simp only [insertEviction]
  cases hfind : m.mshr_.find? oldAddr with
  | none =>
    refine keepsEvents_setRegister ?_
    rw [MSHR.eventsAt, entriesAt_of_not_find hfind]
    rfl
  | some reg =>
    refine keepsEvents_setRegister ?_
    rw [MSHR.eventsAt, entriesAt_of_find hfind]
    exact eventsIn_pushEviction reg.entries newAddr now

theorem removeEntry_keepsEvents {index : Nat} {e : MSHREntry ε}
    (h : m.removeEntry addr index = some t) (he : (m.entriesAt addr)[index]? = some e)
    (hevent : e.getEvent = none) :
    KeepsEvents m t := by
  obtain ⟨reg, e', hfind, hget, rfl⟩ := removeEntry_spec h
  rw [entriesAt_of_find hfind, hget, some.injEq] at he
  subst he
  refine ⟨?_, fun a => ?_⟩
  · rw [setOrErase_size]
    simp [sizeWithout, MSHREntry.isEvent, hevent]
  · by_cases ha : a = addr
    · subst a
      obtain ⟨hlt, rfl⟩ := List.getElem?_eq_some_iff.1 hget
      rw [MSHR.eventsAt, entriesAt_setOrErase_self, MSHR.eventsAt,
        entriesAt_of_find hfind, eventsIn, eventsIn]
      conv_rhs => rw [← take_append_drop index reg.entries, drop_eq_getElem_cons hlt]
      rw [eraseIdx_eq_take_drop_succ, filterMap_append, filterMap_append, filterMap_cons, hevent]
    · rw [MSHR.eventsAt, entriesAt_setOrErase_of_ne _ _ _ ha]
      rfl

theorem removeEvictPointer_keepsEvents {addrPtr : Addr} {retry : Bool}
    (h : m.removeEvictPointer addr addrPtr = some (retry, t)) :
    KeepsEvents m t := by
  obtain ⟨reg, before, e, e', after, hfind, hentries, he, he', ht⟩ := removeEvictPointer_cases h
  have hkeep : KeepsEvents m
      (m.setRegister addr { reg with entries := before ++ e' :: after }) := by
    refine keepsEvents_setRegister ?_
    rw [MSHR.eventsAt, entriesAt_of_find hfind, hentries]
    simp only [eventsIn, filterMap_append, filterMap_cons_none he, filterMap_cons_none he']
  rcases ht with rfl | hrem
  · exact hkeep
  · exact hkeep.trans (removeEntry_keepsEvents hrem (by rw [entriesAt_setRegister_self]; simp) he')

end Calls

end MSHR

end Addresses

section Managers

open Library Function List

namespace MESIL1

variable {P : ReplacementPolicy}

/-- The events of the MSHR wait at their base addresses. -/
structure Filed (s : MESIL1 P) : Prop where
  alive_lt : ∀ p ev, s.heap p = some ev → p < s.nextPtr
  mshr_lt : ∀ a p, p ∈ s.mshr_.eventsAt a → p < s.nextPtr
  base : ∀ a p ev, p ∈ s.mshr_.eventsAt a → s.heap p = some ev →
    ev.baseAddr_ = a

theorem MshrNote.keepsEvents {m t : MSHR Nat} (h : MshrNote m t) : MSHR.KeepsEvents m t := by
  cases h with
  | addPendingRetry h =>
    exact MSHR.keepsEvents_of_entriesAt (MSHR.modifyRegister_entriesAt h fun _ => rfl)
  | removePendingRetry h =>
    exact MSHR.keepsEvents_of_entriesAt (MSHR.removePendingRetry_entriesAt h)
  | setProfiled h =>
    exact MSHR.modifyFront_keepsEvents h fun _ => rfl
  | setInProgress h =>
    exact MSHR.modifyFront_keepsEvents h fun _ => rfl
  | insertWriteback addr downgrade now =>
    exact MSHR.insertWriteback_keepsEvents _ _ _ _
  | insertEviction oldAddr newAddr now =>
    exact MSHR.insertEviction_keepsEvents _ _ _ _
  | removeEvictPointer h =>
    exact MSHR.removeEvictPointer_keepsEvents h

section Filed

variable {s : MESIL1 P}

theorem Filed.congr {t : MESIL1 P} (h : Filed s) (hheap : t.heap = s.heap)
    (hnext : t.nextPtr = s.nextPtr)
    (hmshr : ∀ a p, p ∈ t.mshr_.eventsAt a → p ∈ s.mshr_.eventsAt a) :
    Filed t where
  alive_lt := by
    rw [hheap, hnext]
    exact h.alive_lt
  mshr_lt := by
    intro a p hp
    rw [hnext]
    exact h.mshr_lt a p (hmshr a p hp)
  base := by
    intro a p ev hp hev
    rw [hheap] at hev
    exact h.base a p ev (hmshr a p hp) hev

theorem Filed.newEvent (h : Filed s) (ev : MemEvent) :
    Filed { s with
      heap := update s.heap s.nextPtr (some ev)
      nextPtr := s.nextPtr + 1 } where
  alive_lt := by
    intro p ev' hp
    by_cases heq : p = s.nextPtr
    · subst p
      exact Nat.lt_succ_self _
    · dsimp only at hp
      rw [update_of_ne heq] at hp
      exact Nat.lt_succ_of_lt (h.alive_lt p ev' hp)
  mshr_lt := fun a p hp => Nat.lt_succ_of_lt (h.mshr_lt a p hp)
  base := by
    intro a p ev' hp hev
    have hlt := h.mshr_lt a p hp
    dsimp only at hev
    rw [update_of_ne (ne_of_lt hlt)] at hev
    exact h.base a p ev' hp hev

theorem Filed.deleteEvent (h : Filed s) (p : Nat) :
    Filed { s with heap := update s.heap p none } where
  alive_lt := by
    intro q ev hq
    by_cases heq : q = p
    · subst q
      simp at hq
    · dsimp only at hq
      rw [update_of_ne heq] at hq
      exact h.alive_lt q ev hq
  mshr_lt := h.mshr_lt
  base := by
    intro a q ev hq hev
    by_cases heq : q = p
    · subst q
      simp at hev
    · dsimp only at hev
      rw [update_of_ne heq] at hev
      exact h.base a q ev hq hev

theorem Filed.setMemFlags (h : Filed s) {p : Nat} {ev : MemEvent} (flags : UInt32)
    (hp : s.heap p = some ev) :
    Filed { s with
      heap := update s.heap p (some { ev with memFlags_ := flags }) }
      where
  alive_lt := by
    intro q ev' hq
    by_cases heq : q = p
    · subst q
      exact h.alive_lt p ev hp
    · dsimp only at hq
      rw [update_of_ne heq] at hq
      exact h.alive_lt q ev' hq
  mshr_lt := h.mshr_lt
  base := by
    intro a q ev' hq hev
    by_cases heq : q = p
    · subst q
      simp only [update_self, Option.some.injEq] at hev
      subst hev
      exact h.base a p ev hq hp
    · dsimp only at hev
      rw [update_of_ne heq] at hev
      exact h.base a q ev' hq hev

theorem mem_eventsAt_insertEvent {m : MSHR Nat} {addr a : Addr} {event p : Nat} {pos : Int}
    {fwdReq : Bool} {now : SimTime}
    (h : p ∈ (m.insertEvent addr event pos fwdReq false now).2.eventsAt a) :
    p ∈ m.eventsAt a ∨ a = addr ∧ p = event := by
  rcases MSHR.insertEvent_spec m addr event pos fwdReq false now with
    ⟨heq, -⟩ | ⟨i, t, heq, hat, -⟩
  · rw [heq] at h
    exact .inl h
  · rw [heq] at h
    by_cases ha : a = addr
    · subst a
      obtain ⟨before, after, -, hm, ht⟩ := hat.entriesAt
      simp only [MSHR.eventsAt, MSHR.eventsIn, ht, filterMap_append, mem_append] at h
      rw [MSHR.eventsAt, hm]
      rcases h with h | h
      · exact .inl (by simp [MSHR.eventsIn, h])
      · simp only [filterMap_cons, MSHREntry.getEvent, MSHREntry.ofEvent, mem_cons] at h
        rcases h with rfl | h
        · exact .inr ⟨rfl, rfl⟩
        · exact .inl (by simp [MSHR.eventsIn, h])
    · left
      simpa [MSHR.eventsAt, MSHR.entriesAt, hat.others a ha] using h

theorem Filed.insertEvent (h : Filed s) {p : Nat} {ev : MemEvent} (pos : Int) (fwdReq : Bool)
    (prefetches : UInt64) (hp : s.heap p = some ev) :
    Filed { s with
      mshr_ := (s.mshr_.insertEvent ev.baseAddr_ p pos fwdReq false s.simCycle).2
      outstandingPrefetches_ := prefetches } where
  alive_lt := h.alive_lt
  mshr_lt := by
    intro a q hq
    rcases mem_eventsAt_insertEvent hq with hq | ⟨-, rfl⟩
    · exact h.mshr_lt a q hq
    · exact h.alive_lt q ev hp
  base := by
    intro a q ev' hq hev
    rcases mem_eventsAt_insertEvent hq with hq | ⟨rfl, rfl⟩
    · exact h.base a q ev' hq hev
    · rw [Option.some.inj (hp.symm.trans hev)]

theorem mem_eventsAt_of_removeFront {m t : MSHR Nat} {addr a : Addr} {p : Nat}
    (h : m.removeFront addr = some t) (hp : p ∈ t.eventsAt a) :
    p ∈ m.eventsAt a := by
  obtain ⟨front, hfront⟩ := MSHR.removeFront_spec h
  by_cases ha : a = addr
  · subst a
    rw [MSHR.eventsAt, hfront.entriesAt, MSHR.eventsIn, filterMap_cons]
    cases front.getEvent with
    | none =>
      exact hp
    | some event =>
      exact mem_cons_of_mem _ hp
  · rwa [MSHR.eventsAt, hfront.others a ha] at hp

end Filed

instance : KeptBySends (Preserves (Filed (P := P))) where
  queueDown := fun _ _ h => h.congr rfl rfl (fun _ _ hp => hp)
  queueUp := fun _ _ h => h.congr rfl rfl (fun _ _ hp => hp)
  nextID := fun _ _ h => h.congr rfl rfl (fun _ _ hp => hp)

instance : KeptByLines (Preserves (Filed (P := P))) where
  cacheArray := fun _ _ h => h.congr rfl rfl (fun _ _ hp => hp)
  answers := fun _ _ h => h.congr rfl rfl (fun _ _ hp => hp)

instance : KeptByManagement (Preserves (Filed (P := P))) where
  newEviction := fun _ _ _ _ _ h => h.newEvent _
  deleteEvent := fun _ p _ _ h => h.deleteEvent p
  setMemFlags := fun _ _ _ flags hp h => h.setMemFlags flags hp
  note := fun _ _ hnote h => h.congr rfl rfl
    (fun a _ hp => by rwa [hnote.keepsEvents.eventsAt a] at hp)
  removeFront := fun _ _ _ hrem h => h.congr rfl rfl
    (fun _ _ hp => mem_eventsAt_of_removeFront hrem hp)
  insertEvent := fun _ _ _ pos fwdReq prefetches hp h => h.insertEvent pos fwdReq prefetches hp
  retryBuffer := fun _ _ h => h.congr rfl rfl (fun _ _ hp => hp)
  nextID := fun _ _ h => h.congr rfl rfl (fun _ _ hp => hp)

end MESIL1

end Managers

end SstElements.MemHierarchy
