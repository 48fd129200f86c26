import SstElements.MemHierarchy.Mshr

/-!
# Accounting of the miss status handling registers

`count q` is the number of Event entries, over all addresses, whose event
satisfies `q`.  Every call changes these numbers in one of four ways: not at
all, by one inserted event, by one removed entry, or by a swapped event.
-/

namespace SstElements.MemHierarchy

open Library List Option

universe u v

namespace MSHR

variable {ε : Type u}

section Count

/-- Number of Event entries in a list whose event satisfies `q`. -/
def countIn (q : ε → Bool) (entries : List (MSHREntry ε)) : Nat :=
  entries.countP (fun e => e.getEvent.any q)

/-- Number of Event entries over all addresses whose event satisfies `q`. -/
def count (q : ε → Bool) (m : MSHR ε) : Nat :=
  OrderedMap.total (fun reg => countIn q reg.entries) m.mshr_

/-- Number of Event entries over all addresses. -/
def eventCount (m : MSHR ε) : Nat := m.count (fun _ => true)

def countOf (q : ε → Bool) (e : MSHREntry ε) : Nat := if e.getEvent.any q then 1 else 0

section

variable (q : ε → Bool)
include q

theorem countIn_cons (e : MSHREntry ε) (entries : List (MSHREntry ε)) :
    countIn q (e :: entries) = countIn q entries + countOf q e := by
  simp only [countIn, countOf, countP_cons]

theorem countIn_append (xs ys : List (MSHREntry ε)) :
    countIn q (xs ++ ys) = countIn q xs + countIn q ys := by
  simp only [countIn, countP_append]

@[simp] theorem countIn_nil : countIn q ([] : List (MSHREntry ε)) = 0 := by
  rfl

theorem countIn_perm {xs ys : List (MSHREntry ε)} (h : xs.Perm ys) :
    countIn q xs = countIn q ys :=
  h.countP_eq _

theorem countIn_eraseIdx {entries : List (MSHREntry ε)}
    {index : Nat} {e : MSHREntry ε} (he : entries[index]? = some e) :
    countIn q (entries.eraseIdx index) + countOf q e = countIn q entries := by
  obtain ⟨hlt, rfl⟩ := List.getElem?_eq_some_iff.1 he
  rw [← countIn_cons]
  exact countIn_perm q (getElem_cons_eraseIdx_perm hlt)

theorem countOf_of_getEvent_none {e : MSHREntry ε} (he : e.getEvent = none) :
    countOf q e = 0 := by
  simp [countOf, he]

theorem countOf_of_getEvent_eq {e f : MSHREntry ε} (h : e.getEvent = f.getEvent) :
    countOf q e = countOf q f := by
  simp [countOf, h]

theorem count_setRegister (m : MSHR ε) (addr : Addr) (reg : MSHRRegister ε) :
    (m.setRegister addr reg).count q + countIn q (m.entriesAt addr) =
      m.count q + countIn q reg.entries := by
  have h := OrderedMap.total_insert
    (fun r : MSHRRegister ε => countIn q r.entries) m.mshr_ addr reg
  cases hfind : m.mshr_.find? addr with
  | none =>
    simpa [setRegister, count, entriesAt, hfind, OrderedMap.weight] using h
  | some old =>
    simpa [setRegister, count, entriesAt, hfind, OrderedMap.weight] using h

theorem count_setOrErase (m : MSHR ε) (addr : Addr) (reg : MSHRRegister ε)
    (entries : List (MSHREntry ε)) :
    (m.setOrErase addr reg entries).count q + countIn q (m.entriesAt addr) =
      m.count q + countIn q entries := by
  cases entries with
  | nil =>
    have h := OrderedMap.total_erase
      (fun r : MSHRRegister ε => countIn q r.entries) m.mshr_ addr
    cases hfind : m.mshr_.find? addr with
    | none =>
      simpa [setOrErase, count, entriesAt, hfind, OrderedMap.weight] using h
    | some old =>
      simpa [setOrErase, count, entriesAt, hfind, OrderedMap.weight] using h
  | cons e rest =>
    exact count_setRegister q m addr { reg with entries := e :: rest }

end

theorem count_le_count {q q' : ε → Bool} (h : ∀ event, q event = true → q' event = true)
    (m : MSHR ε) :
    m.count q ≤ m.count q' := by
  refine OrderedMap.total_le_total (fun reg => ?_) m.mshr_
  refine countP_mono_left ?_
  intro e _ he
  obtain ⟨event, hevent, hq⟩ := (any_eq_true _ _).1 he
  exact (any_eq_true _ _).2 ⟨event, hevent, h event hq⟩

theorem entriesAt_of_find {m : MSHR ε} {addr : Addr} {reg : MSHRRegister ε}
    (h : m.mshr_.find? addr = some reg) :
    m.entriesAt addr = reg.entries := by
  simp [entriesAt, h]

theorem entriesAt_of_not_find {m : MSHR ε} {addr : Addr} (h : m.mshr_.find? addr = none) :
    m.entriesAt addr = [] := by
  simp [entriesAt, h]

@[simp] theorem entriesAt_setRegister_self (m : MSHR ε) (addr : Addr) (reg : MSHRRegister ε) :
    (m.setRegister addr reg).entriesAt addr = reg.entries := by
  simp [entriesAt, setRegister]

theorem find_setRegister_of_ne (m : MSHR ε) {addr a : Addr} (reg : MSHRRegister ε) (h : a ≠ addr) :
    (m.setRegister addr reg).mshr_.find? a = m.mshr_.find? a :=
  OrderedMap.find?_insert_of_ne _ _ h

@[simp] theorem setOrErase_size (m : MSHR ε) (addr : Addr) (reg : MSHRRegister ε)
    (entries : List (MSHREntry ε)) :
    (m.setOrErase addr reg entries).size_ = m.size_ := by
  cases entries <;> rfl

@[simp] theorem setOrErase_maxSize (m : MSHR ε) (addr : Addr) (reg : MSHRRegister ε)
    (entries : List (MSHREntry ε)) :
    (m.setOrErase addr reg entries).maxSize_ = m.maxSize_ := by
  cases entries <;> rfl

end Count

section Effects

/-- The call keeps the counter and the Event entries. -/
structure KeepsCounts (m t : MSHR ε) : Prop where
  size : t.size_ = m.size_
  maxSize : t.maxSize_ = m.maxSize_
  count : ∀ q, t.count q = m.count q

/-- The call removes one entry. -/
structure Removes (m t : MSHR ε) (e : MSHREntry ε) : Prop where
  size : t.size_ = m.sizeWithout e
  maxSize : t.maxSize_ = m.maxSize_
  count : ∀ q, t.count q + countOf q e = m.count q

/-- The call inserts one event, below the bound for its kind. -/
structure Inserts (m t : MSHR ε) (event : ε) (fwdRequest : Bool) : Prop where
  size : t.size_ = m.size_ + 1
  maxSize : t.maxSize_ = m.maxSize_
  count : ∀ q, t.count q = m.count q + (if q event then 1 else 0)
  not_full : m.size_ ≠ m.maxSize_
  not_reserved : fwdRequest = false → m.size_ ≠ m.maxSize_ - 1

variable {m t : MSHR ε} {e : MSHREntry ε}

theorem KeepsCounts.of_setRegister {addr : Addr} {reg : MSHRRegister ε}
    (h : ∀ q, countIn q reg.entries = countIn q (m.entriesAt addr)) :
    KeepsCounts m (m.setRegister addr reg) where
  size := rfl
  maxSize := rfl
  count := by
    intro q
    have hcount := count_setRegister q m addr reg
    rw [h q] at hcount
    omega

theorem Removes.keepsCounts (h : Removes m t e) (he : e.getEvent = none) : KeepsCounts m t where
  size := by
    rw [h.size]
    simp [sizeWithout, MSHREntry.isEvent, he]
  maxSize := h.maxSize
  count := by
    intro q
    have hcount := h.count q
    rwa [countOf_of_getEvent_none q he] at hcount

theorem KeepsCounts.removes {mid : MSHR ε} (h : KeepsCounts m mid) (hrem : Removes mid t e) :
    Removes m t e where
  size := by
    rw [hrem.size]
    simp [sizeWithout, h.size]
  maxSize := hrem.maxSize.trans h.maxSize
  count := fun q => (hrem.count q).trans (h.count q)

end Effects

section Spec

variable {m t : MSHR ε} {addr : Addr}

theorem removeFront_eq_removeEntry (m : MSHR ε) (addr : Addr) :
    m.removeFront addr = m.removeEntry addr 0 := by
  simp only [removeFront, removeEntry]
  cases m.mshr_.find? addr with
  | none =>
    rfl
  | some reg =>
    cases hentries : reg.entries with
    | nil =>
      simp [hentries]
    | cons e rest =>
      simp [hentries]

variable {index : Nat} {addrPtr : Addr} {retry : Bool}

theorem removeEntry_spec (h : m.removeEntry addr index = some t) :
    ∃ reg e, m.mshr_.find? addr = some reg ∧ reg.entries[index]? = some e ∧
      t = ({ m with size_ := m.sizeWithout e } : MSHR ε).setOrErase addr reg
        (reg.entries.eraseIdx index) := by
  simp only [removeEntry] at h
  cases hfind : m.mshr_.find? addr with
  | none =>
    simp [hfind] at h
  | some reg =>
    cases hget : reg.entries[index]? with
    | none =>
      simp [hfind, hget] at h
    | some e =>
      refine ⟨reg, e, rfl, hget, ?_⟩
      simpa [hfind, hget] using h.symm

theorem removeEntry_removes (h : m.removeEntry addr index = some t) :
    ∃ e, (m.entriesAt addr)[index]? = some e ∧ Removes m t e := by
  obtain ⟨reg, e, hfind, hget, rfl⟩ := removeEntry_spec h
  rw [entriesAt_of_find hfind]
  refine ⟨e, hget, setOrErase_size _ _ _ _, setOrErase_maxSize _ _ _ _, ?_⟩
  intro q
  have hcount := count_setOrErase q
    ({ m with size_ := m.sizeWithout e } : MSHR ε) addr reg
    (reg.entries.eraseIdx index)
  have hsplit := countIn_eraseIdx q hget
  have hat : ({ m with size_ := m.sizeWithout e } : MSHR ε).entriesAt addr =
      reg.entries := entriesAt_of_find hfind
  have hsame : ({ m with size_ := m.sizeWithout e } : MSHR ε).count q =
      m.count q := rfl
  rw [hat, hsame] at hcount
  omega

theorem keepsCounts_of_front {reg : MSHRRegister ε} {front front' : MSHREntry ε}
    {rest : List (MSHREntry ε)} (hfind : m.mshr_.find? addr = some reg)
    (hentries : reg.entries = front :: rest) (hevent : front'.getEvent = front.getEvent) :
    KeepsCounts m
      (m.setRegister addr { reg with entries := front' :: rest }) := by
  refine KeepsCounts.of_setRegister ?_
  intro q
  rw [entriesAt_of_find hfind, hentries, countIn_cons, countIn_cons,
    countOf_of_getEvent_eq q hevent]

section

variable (h : m.removeEvictPointer addr addrPtr = some (retry, t))
include h

theorem removeEvictPointer_cases :
    ∃ reg before e e' after, m.mshr_.find? addr = some reg ∧
      reg.entries = before ++ e :: after ∧ e.getEvent = none ∧ e'.getEvent = none ∧
      (t = m.setRegister addr { reg with entries := before ++ e' :: after } ∨
        (m.setRegister addr { reg with entries := before ++ e' :: after }).removeEntry addr
          before.length = some t) := by
  simp only [removeEvictPointer] at h
  cases hfind : m.mshr_.find? addr with
  | none =>
    simp [hfind] at h
  | some reg =>
    cases hentries : reg.entries with
    | nil =>
      simp [hfind, hentries] at h
    | cons front rest =>
      cases hbody : front.body with
      | event event =>
        simp [hfind, hentries, hbody] at h
      | evict ptrs =>
        refine ⟨reg, [], front, { front with
          body := .evict (ptrs.filter (fun a => a ≠ addrPtr)) }, rest, rfl, hentries,
          by simp [MSHREntry.getEvent, hbody], rfl, ?_⟩
        simp only [hfind, hentries, hbody] at h
        split at h
        · obtain ⟨t', hrem, heq⟩ := map_eq_some_iff.1 h
          cases heq
          rw [removeFront_eq_removeEntry] at hrem
          exact .inr hrem
        · cases h
          exact .inl rfl
      | writeback downgrade =>
        cases rest with
        | nil =>
          simp [hfind, hentries, hbody] at h
        | cons second more =>
          cases hbody' : second.body with
          | event event =>
            simp [hfind, hentries, hbody, hbody'] at h
          | writeback downgrade' =>
            simp [hfind, hentries, hbody, hbody'] at h
          | evict ptrs =>
            refine ⟨reg, [front], second, { second with
              body := .evict (ptrs.filter (fun a => a ≠ addrPtr)) }, more, rfl,
              hentries, by simp [MSHREntry.getEvent, hbody'], rfl, ?_⟩
            simp only [hfind, hentries, hbody, hbody'] at h
            split at h
            · obtain ⟨t', hrem, heq⟩ := map_eq_some_iff.1 h
              cases heq
              exact .inr hrem
            · cases h
              exact .inl rfl

theorem removeEvictPointer_keepsCounts : KeepsCounts m t := by
  obtain ⟨reg, before, e, e', after, hfind, hentries, he, he', ht⟩ := removeEvictPointer_cases h
  have hkeep : KeepsCounts m
      (m.setRegister addr { reg with entries := before ++ e' :: after }) := by
    refine KeepsCounts.of_setRegister fun q => ?_
    rw [entriesAt_of_find hfind, hentries]
    simp only [countIn_append, countIn_cons, countOf_of_getEvent_none q he,
      countOf_of_getEvent_none q he']
  rcases ht with rfl | hrem
  · exact hkeep
  · obtain ⟨e'', hget, hremoves⟩ := removeEntry_removes hrem
    obtain rfl : e' = e'' := by simpa using hget
    exact (hkeep.removes hremoves).keepsCounts he'

end

theorem moveEntryToFront_keepsCounts (h : m.moveEntryToFront addr index = some t) :
    KeepsCounts m t := by
  simp only [moveEntryToFront] at h
  cases hfind : m.mshr_.find? addr with
  | none =>
    simp [hfind] at h
  | some reg =>
    cases hget : reg.entries[index]? with
    | none =>
      simp [hfind, hget] at h
    | some e =>
      simp only [hfind, hget, some.injEq] at h
      subst h
      refine KeepsCounts.of_setRegister ?_
      intro q
      rw [entriesAt_of_find hfind, countIn_cons]
      exact countIn_eraseIdx q hget

theorem insertWriteback_keepsCounts (m : MSHR ε) (addr : Addr) (downgrade : Bool) (now : SimTime) :
    KeepsCounts m (m.insertWriteback addr downgrade now) := by
  simp only [insertWriteback]
  cases hfind : m.mshr_.find? addr with
  | none =>
    refine KeepsCounts.of_setRegister fun q => ?_
    simp [entriesAt_of_not_find hfind, MSHRRegister.new, countIn_cons,
      countOf, MSHREntry.ofWriteback, MSHREntry.getEvent]
  | some reg =>
    refine KeepsCounts.of_setRegister fun q => ?_
    simp [entriesAt_of_find hfind, countIn_cons, countOf,
      MSHREntry.ofWriteback, MSHREntry.getEvent]

theorem countIn_pushEviction (q : ε → Bool) (entries : List (MSHREntry ε)) (newAddr : Addr)
    (now : SimTime) :
    countIn q (pushEviction entries newAddr now) = countIn q entries := by
  simp only [pushEviction]
  cases hlast : entries.getLast? with
  | none =>
    rw [getLast?_eq_none_iff.1 hlast]
    simp [countIn_cons, countOf, MSHREntry.ofEviction, MSHREntry.getEvent]
  | some last =>
    cases hbody : last.body with
    | event event =>
      simp [hbody, countIn_append, countIn_cons, countOf,
        MSHREntry.ofEviction, MSHREntry.getEvent]
    | writeback downgrade =>
      simp [hbody, countIn_append, countIn_cons, countOf,
        MSHREntry.ofEviction, MSHREntry.getEvent]
    | evict ptrs =>
      have hsplit : entries.dropLast ++ [last] = entries := dropLast_append_getLast? last hlast
      simp only [hbody]
      calc
        countIn q (entries.dropLast ++ [{ last with body := .evict (ptrs ++ [newAddr]) }])
            = countIn q entries.dropLast := by
          simp [countIn_append, countIn_cons, countOf, MSHREntry.getEvent]
        _ = countIn q (entries.dropLast ++ [last]) := by
          simp [countIn_append, countIn_cons, countOf, MSHREntry.getEvent, hbody]
        _ = countIn q entries := by rw [hsplit]

theorem insertEviction_keepsCounts (m : MSHR ε) (oldAddr newAddr : Addr) (now : SimTime) :
    KeepsCounts m (m.insertEviction oldAddr newAddr now) := by
  simp only [insertEviction]
  cases hfind : m.mshr_.find? oldAddr with
  | none =>
    refine KeepsCounts.of_setRegister fun q => ?_
    simp [entriesAt_of_not_find hfind, MSHRRegister.new, countIn_cons,
      countOf, MSHREntry.ofEviction, MSHREntry.getEvent]
  | some reg =>
    refine KeepsCounts.of_setRegister fun q => ?_
    rw [entriesAt_of_find hfind]
    exact countIn_pushEviction q reg.entries newAddr now

theorem modifyRegister_keepsCounts {f : MSHRRegister ε → MSHRRegister ε}
    (h : m.modifyRegister addr f = some t) (hf : ∀ reg, (f reg).entries = reg.entries) :
    KeepsCounts m t := by
  obtain ⟨reg, hfind, rfl⟩ := map_eq_some_iff.1 h
  refine KeepsCounts.of_setRegister fun q => ?_
  rw [hf, entriesAt_of_find hfind]

theorem modifyFront_keepsCounts {f : MSHREntry ε → MSHREntry ε} (h : m.modifyFront addr f = some t)
    (hf : ∀ e, (f e).getEvent = e.getEvent) :
    KeepsCounts m t := by
  simp only [modifyFront] at h
  cases hfind : m.mshr_.find? addr with
  | none =>
    simp [hfind] at h
  | some reg =>
    cases hentries : reg.entries with
    | nil =>
      simp [hfind, hentries] at h
    | cons front rest =>
      simp only [hfind, hentries, some.injEq] at h
      subst h
      exact keepsCounts_of_front hfind hentries (hf front)

theorem incrementAcksNeeded_keepsCounts (m : MSHR ε) (addr : Addr) :
    KeepsCounts m (m.incrementAcksNeeded addr) := by
  refine KeepsCounts.of_setRegister fun q => ?_
  cases hfind : m.mshr_.find? addr with
  | none =>
    simp [entriesAt_of_not_find hfind, MSHRRegister.new]
  | some reg =>
    simp [entriesAt_of_find hfind]

theorem decrementAcksNeeded_keepsCounts {last : Bool}
    (h : m.decrementAcksNeeded addr = some (last, t)) :
    KeepsCounts m t := by
  simp only [decrementAcksNeeded] at h
  cases hfind : m.mshr_.find? addr with
  | none =>
    simp [hfind] at h
  | some reg =>
    simp only [hfind] at h
    split at h
    · cases h
    · cases h
      refine KeepsCounts.of_setRegister fun q => ?_
      rw [entriesAt_of_find hfind]

theorem insertIdx_eq_take_append {α : Type v} {a : α} {l : List α} {i : Nat} (h : i ≤ l.length) :
    l.insertIdx i a = l.take i ++ a :: l.drop i := by
  induction l generalizing i with
  | nil =>
    obtain rfl : i = 0 := Nat.le_zero.1 h
    rfl
  | cons b rest ih =>
    cases i with
    | zero =>
      rfl
    | succ i =>
      simp [ih (Nat.le_of_succ_le_succ h)]

/-- The event is the new entry at index `i` of its address; all other entries
keep their order and other addresses are untouched. -/
structure InsertsAt (m t : MSHR ε) (addr : Addr) (entry : MSHREntry ε) (i : Nat) : Prop where
  entriesAt : ∃ before after,
    before.length = i ∧
    m.entriesAt addr = before ++ after ∧
    t.entriesAt addr = before ++ entry :: after
  others : ∀ a, a ≠ addr → t.mshr_.find? a = m.mshr_.find? a

theorem insertEvent_spec (m : MSHR ε) (addr : Addr) (event : ε) (pos : Int)
    (fwdRequest stallEvict : Bool) (now : SimTime) :
    (m.insertEvent addr event pos fwdRequest stallEvict now = (-1, m) ∧
      (m.size_ = m.maxSize_ ∨ fwdRequest = false ∧ m.size_ = m.maxSize_ - 1))
      ∨ ∃ i t, m.insertEvent addr event pos fwdRequest stallEvict now = (Int.ofNat i, t) ∧
      InsertsAt m t addr (MSHREntry.ofEvent event stallEvict now) i ∧
      Inserts m t event fwdRequest := by
  simp only [insertEvent]
  split
  · rename_i hfull
    left
    refine ⟨rfl, ?_⟩
    simpa using hfull
  · rename_i hfull
    right
    simp only [Bool.or_eq_true, decide_eq_true_eq, Bool.and_eq_true,
      Bool.not_eq_eq_eq_not, Bool.not_true, not_or, not_and] at hfull
    have hinserts : ∀ (reg : MSHRRegister ε),
        (∀ q, countIn q reg.entries = countIn q (m.entriesAt addr) + (if q event then 1 else 0)) →
        Inserts m (({ m with size_ := m.size_ + 1 } : MSHR ε).setRegister
          addr reg) event fwdRequest := by
      intro reg hreg
      refine ⟨rfl, rfl, ?_, hfull.1, fun hfwd => hfull.2 (by simp [hfwd])⟩
      intro q
      have hcount := count_setRegister q
        ({ m with size_ := m.size_ + 1 } : MSHR ε) addr reg
      have hat : ({ m with size_ := m.size_ + 1 } : MSHR ε).entriesAt addr =
          m.entriesAt addr := rfl
      have hsame : ({ m with size_ := m.size_ + 1 } : MSHR ε).count q =
          m.count q := rfl
      rw [hat, hsame, hreg q] at hcount
      omega
    have hentry : ∀ q : ε → Bool,
        countOf q (MSHREntry.ofEvent event stallEvict now) =
          if q event then 1 else 0 :=
      fun q => rfl
    cases hfind : m.mshr_.find? addr with
    | none =>
      refine ⟨0, _, rfl, ⟨⟨[], [], rfl, ?_, ?_⟩, ?_⟩, hinserts _ ?_⟩
      · exact entriesAt_of_not_find hfind
      · simp [MSHRRegister.new]
      · exact fun a ha => find_setRegister_of_ne _ _ ha
      · intro q
        simp [entriesAt_of_not_find hfind, MSHRRegister.new, countIn_cons, hentry]
    | some reg =>
      dsimp only
      split
      · refine ⟨reg.entries.length, _, rfl, ⟨⟨reg.entries, [], rfl, ?_, ?_⟩, ?_⟩, hinserts _ ?_⟩
        · simp [entriesAt_of_find hfind]
        · simp
        · exact fun a ha => find_setRegister_of_ne _ _ ha
        · intro q
          simp [entriesAt_of_find hfind, countIn_append, countIn_cons, hentry]
      · rename_i hpos
        simp only [Bool.or_eq_true, decide_eq_true_eq, not_or, not_lt]
          at hpos
        obtain ⟨n, rfl⟩ := Int.eq_ofNat_of_zero_le hpos.1
        have hle : n ≤ reg.entries.length := by omega
        refine ⟨n, _, rfl,
          ⟨⟨reg.entries.take n, reg.entries.drop n, ?_, ?_, ?_⟩, ?_⟩, hinserts _ ?_⟩
        · simpa using hle
        · simp [entriesAt_of_find hfind]
        · rw [entriesAt_setRegister_self]
          exact insertIdx_eq_take_append hle
        · exact fun a ha => find_setRegister_of_ne _ _ ha
        · intro q
          rw [entriesAt_of_find hfind, ← hentry q, ← countIn_cons]
          exact countIn_perm q (perm_insertIdx _ _ hle)

theorem swapFrontEvent_spec {event : ε} {now : SimTime} {old : Option ε}
    (h : m.swapFrontEvent addr event now = some (old, t)) :
    t.size_ = m.size_ ∧ t.maxSize_ = m.maxSize_ ∧ old = (m.getFront addr).bind MSHREntry.getEvent ∧
      ∀ q, t.count q + (if old.any q then 1 else 0) =
          m.count q + (if old.isSome && q event then 1 else 0) := by
  simp only [swapFrontEvent] at h
  cases hfind : m.mshr_.find? addr with
  | none =>
    simp [hfind] at h
  | some reg =>
    cases hentries : reg.entries with
    | nil =>
      simp only [hfind, hentries, some.injEq, Prod.mk.injEq] at h
      obtain ⟨rfl, rfl⟩ := h
      simp [getFront, entriesAt_of_find hfind, hentries]
    | cons front rest =>
      simp only [hfind, hentries, some.injEq, Prod.mk.injEq] at h
      obtain ⟨rfl, rfl⟩ := h
      refine ⟨rfl, rfl, ?_, ?_⟩
      · cases hbody : front.body <;>
          simp [getFront, entriesAt_of_find hfind, hentries,
            MSHREntry.swapEvent, MSHREntry.getEvent, hbody]
      · intro q
        have hcount := count_setRegister q m addr
          { reg with
            entries := (front.swapEvent event now).1 :: rest }
        rw [entriesAt_of_find hfind, hentries] at hcount
        simp only [countIn_cons] at hcount
        cases hbody : front.body with
        | event ev =>
          simp only [MSHREntry.swapEvent, hbody, countOf,
            MSHREntry.getEvent, any_some] at hcount ⊢
          simp only [isSome_some, Bool.true_and]
          omega
        | evict ptrs =>
          simp only [MSHREntry.swapEvent, hbody, countOf, MSHREntry.getEvent] at hcount ⊢
          simp at hcount ⊢
          omega
        | writeback downgrade =>
          simp only [MSHREntry.swapEvent, hbody, countOf, MSHREntry.getEvent] at hcount ⊢
          simp at hcount ⊢
          omega

end Spec

end MSHR

end SstElements.MemHierarchy
