import SstElements.Library.Transition

/-!
# The reorder queue and the branch unit's tables

The circular queue is compared with a bounded list.  The branch unit keeps the addresses of its
predictions in a second list, whose reordering never moves its iterator.
-/

namespace SstElements.Vanadis

open Library List Option

universe u

section Queue

variable {α : Type u}

structure VanadisCircularQueue (α : Type u) where
  maxCapacity : Nat
  head : Nat
  tail : Nat
  count : Nat
  data : Nat → α
  maxPowerTwo : Bool
  bitMask : Nat

inductive QueueCall (α : Type u)
  | push (item : α)
  | pop
  | peekAt (index : Nat)
  | clear

/-- The sum of two `int` values; an overflow is undefined behaviour. -/
def addInt (x y : Nat) : Option Nat := if x + y < 0x80000000 then some (x + y) else none

namespace VanadisCircularQueue

/-- The memory behind `new T[size]` is not initialised. -/
def create (size : Nat) (data : Nat → α) : VanadisCircularQueue α :=
  let maxPowerTwo := (range 32).countP size.testBit == 1
  ⟨size, 0, 0, 0, data, maxPowerTwo, if maxPowerTwo then size - 1 else 0⟩

def reduce (q : VanadisCircularQueue α) (sum : Nat) : Nat :=
  if q.maxPowerTwo then sum &&& q.bitMask else sum % q.maxCapacity

def calculateIndex (q : VanadisCircularQueue α) (index : Nat) : Option Nat :=
  (addInt q.head index).map q.reduce

def incrementIndex (q : VanadisCircularQueue α) (index : Nat) : Option Nat :=
  (addInt index 1).map q.reduce

/-- A call and the value it returns; `none` is a failed assertion or undefined behaviour. -/
def call (q : VanadisCircularQueue α) : QueueCall α → Option (VanadisCircularQueue α × Option α)
  | .push item =>
    if q.count < q.maxCapacity then
      (q.incrementIndex q.tail).map fun tail =>
        ({ q with data := Function.update q.data q.tail item, tail, count := q.count + 1 }, none)
    else none
  | .pop =>
    if 0 < q.count then
      (q.incrementIndex q.head).map fun head =>
        ({ q with head, count := q.count - 1 }, some (q.data q.head))
    else none
  | .peekAt index =>
    if index < q.count then
      (q.calculateIndex index).map fun i => (q, some (q.data i))
    else none
  | .clear => some ({ q with head := 0, tail := 0, count := 0 }, none)

def step (q : VanadisCircularQueue α) (c : QueueCall α) : Option (VanadisCircularQueue α) :=
  (q.call c).map Prod.fst

/-- The sum that `calculateIndex` computes for a peek is an `int`. -/
def IndexFits (q : VanadisCircularQueue α) : QueueCall α → Prop
  | .peekAt index => q.head + index < 0x80000000
  | _ => True

instance instDecidableIndexFits (q : VanadisCircularQueue α) : ∀ c, Decidable (q.IndexFits c)
  | .peekAt index => inferInstanceAs (Decidable (q.head + index < 0x80000000))
  | .push _ | .pop | .clear => inferInstanceAs (Decidable True)

end VanadisCircularQueue

/-- The bounded list that the queue stands for, oldest element first. -/
def fifoCall (capacity : Nat) (xs : List α) : QueueCall α → Option (List α × Option α)
  | .push item => if xs.length < capacity then some (xs ++ [item], none) else none
  | .pop => xs.head?.map fun x => (xs.tail, some x)
  | .peekAt index => xs[index]?.map fun x => (xs, some x)
  | .clear => some ([], none)

/-- What each call returns and the size after it. -/
def answers {σ : Type u} (call : σ → QueueCall α → Option (σ × Option α)) (size : σ → Nat) :
    σ → List (QueueCall α) → Option (List (Option α × Nat))
  | _, [] => some []
  | s, c :: rest =>
    (call s c).bind fun (t, value) => (answers call size t rest).map ((value, size t) :: ·)

namespace VanadisCircularQueue

/-- The queue holds the elements of a list, from its head on. -/
structure Holds (q : VanadisCircularQueue α) (xs : List α) : Prop where
  reduce : ∀ sum, q.reduce sum = sum % q.maxCapacity
  capacity : q.maxCapacity < 0x80000000
  head : q.head < q.maxCapacity
  tail : q.tail = (q.head + q.count) % q.maxCapacity
  count : q.count = xs.length
  bounded : xs.length ≤ q.maxCapacity
  data : ∀ i < xs.length, xs[i]? = some (q.data ((q.head + i) % q.maxCapacity))

variable {size : Nat}

theorem exists_eq_two_pow (hsize : size < 0x80000000)
    (hcount : (range 32).countP size.testBit = 1) :
    ∃ k, size = 2 ^ k := by
  rw [countP_eq_length_filter, length_eq_one_iff] at hcount
  obtain ⟨k, hk⟩ := hcount
  refine ⟨k, Nat.eq_of_testBit_eq fun i => ?_⟩
  have hbit : (i < 32 ∧ size.testBit i = true) ↔ i = k := by simpa using congrArg (i ∈ ·) hk
  have hhigh : 32 ≤ i → size.testBit i = false := fun hi =>
    Nat.testBit_lt_two_pow (hsize.trans_le (Nat.pow_le_pow_right two_pos (by omega : 31 ≤ i)))
  rw [Nat.testBit_two_pow, Bool.eq_iff_iff, decide_eq_true_iff]
  constructor
  · intro hi
    refine (hbit.1 ⟨Nat.lt_of_not_le fun h => ?_, hi⟩).symm
    simp [hhigh h] at hi
  · exact fun h => (hbit.2 h.symm).2

/-- The mask and the modulo reduce an index to the same place. -/
theorem reduce_create (data : Nat → α) (hsize : size < 0x80000000) (sum : Nat) :
    (create size data).reduce sum = sum % size := by
  unfold reduce create
  split
  · rename_i hpower
    obtain ⟨k, rfl⟩ := exists_eq_two_pow hsize (by simpa using hpower)
    simp only at hpower
    simp [hpower, Nat.and_two_pow_sub_one_eq_mod]
  · rfl

theorem holds_create (data : Nat → α) (hpos : 0 < size) (hsize : size < 0x80000000) :
    (create size data).Holds [] where
  reduce := reduce_create data hsize
  capacity := hsize
  head := hpos
  tail := (Nat.zero_mod size).symm
  count := rfl
  bounded := Nat.zero_le size
  data i hi := absurd hi (Nat.not_lt_zero i)

variable {q : VanadisCircularQueue α} {xs : List α}

theorem Holds.pop {x : α} {rest : List α} (h : q.Holds (x :: rest)) :
    Holds { q with head := (q.head + 1) % q.maxCapacity, count := q.count - 1 } rest where
  __ := h
  head := Nat.mod_lt _ (Nat.zero_lt_of_lt h.head)
  tail := by
    simp only [Nat.mod_add_mod, h.tail, h.count, length_cons]
    congr 1
    omega
  count := by simp [h.count]
  bounded := (Nat.le_succ _).trans h.bounded
  data i hi := by
    have hnext := h.data (i + 1) (by simpa using hi)
    rw [getElem?_cons_succ] at hnext
    simp only [hnext, Nat.mod_add_mod, add_assoc, add_comm 1 i]

section

variable (h : q.Holds xs)
include h

theorem Holds.incrementIndex {index : Nat} (hindex : index < q.maxCapacity) :
    q.incrementIndex index = some ((index + 1) % q.maxCapacity) := by
  have hcapacity := h.capacity
  rw [VanadisCircularQueue.incrementIndex, addInt, if_pos (by omega), map_some, h.reduce]

theorem Holds.tail_lt : q.tail < q.maxCapacity := by
  rw [h.tail]
  exact Nat.mod_lt _ (Nat.zero_lt_of_lt h.head)

theorem Holds.push {item : α} (hroom : xs.length < q.maxCapacity) :
    Holds { q with data := Function.update q.data q.tail item
                   tail := (q.tail + 1) % q.maxCapacity
                   count := q.count + 1 } (xs ++ [item]) where
  __ := h
  tail := by simp only [h.tail, Nat.mod_add_mod, add_assoc]
  count := by simp [h.count]
  bounded := by simpa using hroom
  data i hi := by
    rw [length_append, length_singleton, Nat.lt_succ_iff_lt_or_eq] at hi
    obtain hi | rfl := hi
    · have hplace : (q.head + i) % q.maxCapacity ≠ q.tail := by
        rw [h.tail, h.count]
        intro heq
        exact hi.ne (Nat.ModEq.eq_of_lt_of_lt (Nat.ModEq.add_left_cancel' _ heq)
          (hi.trans hroom) hroom)
      simp only [getElem?_append_left hi, Function.update_of_ne hplace, h.data i hi]
    · simp [h.tail, h.count]

/-- A call that the list allows does the same to the queue, if its index fits. -/
theorem Holds.call_of_fits {c : QueueCall α} {ys : List α} {value : Option α}
    (hfifo : fifoCall q.maxCapacity xs c = some (ys, value)) (hfits : q.IndexFits c) :
    ∃ q', q.call c = some (q', value) ∧ q'.Holds ys ∧ q'.maxCapacity = q.maxCapacity := by
  cases c with
  | push item =>
    rw [fifoCall, Option.ite_none_right_eq_some, some.injEq, Prod.mk.injEq] at hfifo
    obtain ⟨hroom, rfl, rfl⟩ := hfifo
    refine ⟨_, ?_, h.push hroom, rfl⟩
    rw [VanadisCircularQueue.call, if_pos (h.count ▸ hroom), h.incrementIndex h.tail_lt, map_some]
  | pop =>
    cases xs with
    | nil => simp [fifoCall] at hfifo
    | cons x rest =>
      obtain ⟨rfl, rfl⟩ := hfifo
      have hfirst : x = q.data q.head := by
        simpa [Nat.mod_eq_of_lt h.head] using h.data 0 (by simp)
      have hcount : 0 < q.count := by simp [h.count]
      refine ⟨_, ?_, h.pop, rfl⟩
      rw [VanadisCircularQueue.call, if_pos hcount, h.incrementIndex h.head, map_some, ← hfirst]
  | peekAt index =>
    simp only [fifoCall, map_eq_some_iff, Prod.mk.injEq] at hfifo
    obtain ⟨x, hx, rfl, rfl⟩ := hfifo
    have hindex := (List.getElem?_eq_some_iff.1 hx).1
    refine ⟨q, ?_, h, rfl⟩
    rw [VanadisCircularQueue.call, if_pos (h.count ▸ hindex), calculateIndex, addInt,
      if_pos (show q.head + index < _ from hfits), map_some, map_some, h.reduce,
        ← h.data index hindex, hx]
  | clear =>
    obtain ⟨rfl, rfl⟩ := hfifo
    exact ⟨_, rfl, ⟨h.reduce, h.capacity, Nat.zero_lt_of_lt h.head, (Nat.zero_mod _).symm, rfl,
      Nat.zero_le _, fun i hi => absurd hi (Nat.not_lt_zero i)⟩, rfl⟩

omit h in
theorem call_of_not_indexFits {c : QueueCall α} (hfits : ¬ q.IndexFits c) : q.call c = none := by
  cases c with
  | peekAt index =>
    have hsum : ¬ q.head + index < 0x80000000 := hfits
    simp only [VanadisCircularQueue.call, calculateIndex, addInt, if_neg hsum, map_none, ite_self]
  | _ => exact absurd trivial hfits

theorem Holds.answers_eq_iff {calls : List (QueueCall α)}
    (hallowed : (answers (fifoCall q.maxCapacity) length xs calls).isSome) :
    answers call VanadisCircularQueue.count q calls =
      answers (fifoCall q.maxCapacity) length xs calls ↔
      StepsMeet step IndexFits q calls := by
  induction calls generalizing q xs with
  | nil => exact iff_of_true rfl trivial
  | cons c rest ih =>
    cases hfifo : fifoCall q.maxCapacity xs c with
    | none => simp [answers, hfifo] at hallowed
    | some next =>
      obtain ⟨ys, value⟩ := next
      simp only [answers, hfifo, bind_some, isSome_map] at hallowed ⊢
      by_cases hfits : q.IndexFits c
      · obtain ⟨q', hcall, hnext, hcapacity⟩ := h.call_of_fits hfifo hfits
        rw [← hcapacity] at hallowed ⊢
        rw [hcall, bind_some, hnext.count, (map_injective cons_injective).eq_iff,
          ih hnext hallowed, stepsMeet_cons_iff (by rw [step, hcall, map_some]),
          and_iff_right hfits]
      · rw [call_of_not_indexFits hfits, bind_none]
        refine iff_of_false (fun heq => ?_) fun hmeets => hfits hmeets.1
        obtain ⟨values, hvalues⟩ := isSome_iff_exists.1 hallowed
        simp [hvalues] at heq

end

end VanadisCircularQueue

end Queue

section BranchUnit

structure VanadisBasicBranchUnit where
  maxEntries : Nat
  lruKeeper : List Nat
  predict : Nat → Option Nat

namespace VanadisBasicBranchUnit

def create (maxEntries : Nat) : VanadisBasicBranchUnit := ⟨maxEntries, [], fun _ => none⟩

/-- The victim; the back of an empty list is undefined. -/
def lruExpire (u : VanadisBasicBranchUnit) : Option (Nat × VanadisBasicBranchUnit) :=
  u.lruKeeper.getLast?.map fun victim => (victim, { u with lruKeeper := u.lruKeeper.dropLast })

def push (u : VanadisBasicBranchUnit) (insAddr predAddr : Nat) : Option VanadisBasicBranchUnit :=
  if (u.predict insAddr).isSome then
    some { u with predict := Function.update u.predict insAddr (some predAddr) }
  else
    (if u.maxEntries ≤ u.lruKeeper.length then
      u.lruExpire.bind fun (victim, u) =>
        -- `erase(find(victim))` needs an entry
        if (u.predict victim).isSome then
          some { u with predict := Function.update u.predict victim none }
        else none
    else some u).map fun u =>
      { u with
        lruKeeper := insAddr :: u.lruKeeper
        predict := Function.update u.predict insAddr (some predAddr) }

def predictAddress (u : VanadisBasicBranchUnit) (addr : Nat) : Nat := (u.predict addr).getD 0

/-- The loop of `lru_reorder`, with a bound on its passes; no pass moves the iterator. -/
def lruReorderLoop (u : VanadisBasicBranchUnit) (addr lruItr : Nat) :
    Nat → Option VanadisBasicBranchUnit
  | 0 => none
  | passes + 1 =>
    match u.lruKeeper[lruItr]? with
    | none => some u
    | some entry =>
      if addr = entry then
        some { u with lruKeeper := addr :: u.lruKeeper.eraseIdx lruItr }
      else u.lruReorderLoop addr lruItr passes

def lruReorder (u : VanadisBasicBranchUnit) (addr : Nat) : Nat → Option VanadisBasicBranchUnit :=
  u.lruReorderLoop addr 0

inductive Call
  | push (insAddr predAddr : Nat)
  | predictAddress (addr : Nat)
  | reorder (addr : Nat)

/-- Besides the unit, the latest target pushed for each address is recorded. -/
def step : VanadisBasicBranchUnit × (Nat → Nat) → Call →
    Option (VanadisBasicBranchUnit × (Nat → Nat))
  | (u, latest), .push insAddr predAddr =>
    (u.push insAddr predAddr).map fun u => (u, Function.update latest insAddr predAddr)
  | (u, latest), .predictAddress _ => some (u, latest)
  | (u, latest), .reorder addr =>
    (u.lruReorder addr (u.lruKeeper.length + 1)).map fun u => (u, latest)

structure Consistent (u : VanadisBasicBranchUnit) (latest : Nat → Nat) : Prop where
  nodup : u.lruKeeper.Nodup
  mem_iff : ∀ a, a ∈ u.lruKeeper ↔ (u.predict a).isSome
  bounded : u.lruKeeper.length ≤ u.maxEntries
  predicts : ∀ a ∈ u.lruKeeper, u.predictAddress a = latest a

/-- The call is carried out, and the loop of a reordering ends. -/
def Completes (u : VanadisBasicBranchUnit) : Call → Prop
  | .push insAddr predAddr => (u.push insAddr predAddr).isSome
  | .predictAddress _ => True
  | .reorder addr => ∃ passes, (u.lruReorder addr passes).isSome

def Serves (u : VanadisBasicBranchUnit) : Call → Prop
  | .push _ _ => 0 < u.maxEntries
  | .predictAddress _ => True
  | .reorder addr => u.lruKeeper = [] ∨ u.lruKeeper.head? = some addr

instance instDecidableServes (u : VanadisBasicBranchUnit) : ∀ c, Decidable (u.Serves c)
  | .push _ _ => inferInstanceAs (Decidable (0 < u.maxEntries))
  | .predictAddress _ => inferInstanceAs (Decidable True)
  | .reorder addr =>
    inferInstanceAs (Decidable (u.lruKeeper = [] ∨ u.lruKeeper.head? = some addr))

variable {u t : VanadisBasicBranchUnit} {latest : Nat → Nat} {addr : Nat}

/-- A first pass that does not end the loop is repeated for ever. -/
theorem lruReorder_isSome_iff :
    (∃ passes, (u.lruReorder addr passes).isSome) ↔ u.Serves (.reorder addr) := by
  unfold lruReorder Serves
  cases hkeeper : u.lruKeeper with
  | nil => exact iff_of_true ⟨1, by simp [lruReorderLoop, hkeeper]⟩ (.inl rfl)
  | cons front rest =>
    by_cases heq : addr = front
    · exact iff_of_true ⟨1, by simp [lruReorderLoop, hkeeper, heq]⟩ (.inr (by simp [heq]))
    · refine iff_of_false ?_ (by simpa using Ne.symm heq)
      rintro ⟨passes, hpasses⟩
      induction passes with
      | zero => simp [lruReorderLoop] at hpasses
      | succ passes ih =>
        simp only [lruReorderLoop, hkeeper, getElem?_cons_zero, if_neg heq] at hpasses
        exact ih hpasses

theorem lruReorder_eq {passes : Nat} (h : u.lruReorder addr passes = some t) : t = u := by
  have hserves := lruReorder_isSome_iff.1 ⟨passes, isSome_iff_exists.2 ⟨t, h⟩⟩
  unfold lruReorder at h
  cases passes with
  | zero => simp [lruReorderLoop] at h
  | succ passes =>
    obtain hnil | hhead := hserves
    · simpa [lruReorderLoop, hnil, eq_comm] using h
    · obtain ⟨rest, hrest⟩ := head?_eq_some_iff.1 hhead
      obtain ⟨entries, keeper, predict⟩ := u
      subst hrest
      simpa [lruReorderLoop, eq_comm] using h

section

variable (h : u.Consistent latest)
include h

theorem Consistent.record {insAddr : Nat} (predAddr : Nat) {keeper : List Nat}
    (hnodup : keeper.Nodup) (hmem : ∀ a, a ∈ keeper ↔ a = insAddr ∨ a ∈ u.lruKeeper)
    (hlength : keeper.length ≤ u.maxEntries) :
    Consistent { u with
        lruKeeper := keeper
        predict := Function.update u.predict insAddr (some predAddr) }
      (Function.update latest insAddr predAddr) where
  nodup := hnodup
  mem_iff a := by
    obtain rfl | ha := eq_or_ne a insAddr
    · simp [hmem]
    · simp only [hmem, ha, false_or, Function.update_of_ne ha, h.mem_iff a]
  bounded := hlength
  predicts a hkept := by
    unfold predictAddress
    obtain rfl | ha := eq_or_ne a insAddr
    · simp
    · simp only [Function.update_of_ne ha]
      exact h.predicts a (((hmem a).1 hkept).resolve_left ha)

theorem Consistent.erase {kept : List Nat} {victim : Nat}
    (hkeeper : u.lruKeeper = kept ++ [victim]) :
    Consistent { u with
        lruKeeper := kept
        predict := Function.update u.predict victim none } latest where
  nodup := (nodup_append.1 (hkeeper ▸ h.nodup)).1
  mem_iff a := by
    have hvictim : victim ∉ kept := fun hmem =>
      (nodup_append.1 (hkeeper ▸ h.nodup)).2.2 victim hmem victim (mem_singleton_self _) rfl
    obtain rfl | ha := eq_or_ne a victim
    · simpa using hvictim
    · simp only [Function.update_of_ne ha, ← h.mem_iff a, hkeeper, mem_append, mem_singleton, ha,
        or_false]
  bounded := by
    have hbounded := h.bounded
    simp only [hkeeper, length_append] at hbounded
    exact (Nat.le_add_right _ _).trans hbounded
  predicts a hkept := by
    have hkeptBefore : a ∈ u.lruKeeper := hkeeper ▸ mem_append_left _ hkept
    have hpredicts := h.predicts a hkeptBefore
    have ha : a ≠ victim := by
      rintro rfl
      exact (nodup_append.1 (hkeeper ▸ h.nodup)).2.2 a hkept a (mem_singleton_self _) rfl
    simpa only [predictAddress, Function.update_of_ne ha] using hpredicts

/-- A push sets the entry it finds, or casts one out when the table is full. -/
theorem Consistent.push_spec (insAddr predAddr : Nat) :
    (u.push insAddr predAddr = none ∧ u.maxEntries = 0) ∨
      0 < u.maxEntries ∧ ∃ t, u.push insAddr predAddr = some t ∧
        t.Consistent (Function.update latest insAddr predAddr) := by
  unfold push
  by_cases hheld : (u.predict insAddr).isSome
  · have hmem := (h.mem_iff insAddr).2 hheld
    have hpos := (length_pos_of_mem hmem).trans_le h.bounded
    rw [if_pos hheld]
    exact .inr ⟨hpos, _, rfl, h.record predAddr h.nodup
      (fun a => (or_iff_right_of_imp fun ha => ha ▸ hmem).symm) h.bounded⟩
  · have hnew : insAddr ∉ u.lruKeeper := fun hmem => hheld ((h.mem_iff insAddr).1 hmem)
    rw [if_neg hheld]
    by_cases hfull : u.maxEntries ≤ u.lruKeeper.length
    · rw [if_pos hfull]
      obtain hnil | ⟨kept, victim, hkeeper⟩ := eq_nil_or_concat' u.lruKeeper
      · refine .inl ⟨by simp [lruExpire, hnil], ?_⟩
        simpa [hnil] using hfull
      · have hvictim := (h.mem_iff victim).1 (by simp [hkeeper])
        have herased := h.erase hkeeper
        have hbounded := h.bounded
        simp only [hkeeper, length_append, length_singleton] at hbounded
        have hkept : insAddr ∉ kept := fun hmem => hnew (hkeeper ▸ mem_append_left _ hmem)
        refine .inr ⟨by omega, _, ?_, herased.record predAddr (nodup_cons.2 ⟨hkept, herased.nodup⟩)
          (fun a => mem_cons) hbounded⟩
        simp [lruExpire, hkeeper, hvictim]
    · rw [if_neg hfull]
      exact .inr ⟨by omega, _, rfl, h.record predAddr (nodup_cons.2 ⟨hnew, h.nodup⟩)
        (fun a => mem_cons) (Nat.lt_of_not_le hfull)⟩

theorem Consistent.completes_iff (c : Call) : u.Completes c ↔ u.Serves c := by
  cases c with
  | push insAddr predAddr =>
    unfold Completes Serves
    obtain ⟨hnone, hzero⟩ | ⟨hpos, t, hpush, -⟩ := h.push_spec insAddr predAddr
    · simp [hnone, hzero]
    · simp [hpush, hpos]
  | predictAddress addr => exact .rfl
  | reorder addr => exact lruReorder_isSome_iff

theorem Consistent.step {c : Call} {next : VanadisBasicBranchUnit × (Nat → Nat)}
    (hstep : step (u, latest) c = some next) :
    next.1.Consistent next.2 := by
  cases c with
  | push insAddr predAddr =>
    obtain ⟨t, hpush, rfl⟩ := map_eq_some_iff.1 hstep
    obtain ⟨hnone, -⟩ | ⟨-, t', hpush', hnext⟩ := h.push_spec insAddr predAddr
    · simp [hpush] at hnone
    · rw [hpush, some.injEq] at hpush'
      exact hpush' ▸ hnext
  | predictAddress addr =>
    cases hstep
    exact h
  | reorder addr =>
    obtain ⟨t, ht, rfl⟩ := map_eq_some_iff.1 hstep
    exact lruReorder_eq ht ▸ h

end

theorem consistent_create (maxEntries : Nat) (latest : Nat → Nat) :
    (create maxEntries).Consistent latest :=
  ⟨nodup_nil, by simp [create], Nat.zero_le _, by simp [create]⟩

end VanadisBasicBranchUnit

end BranchUnit

section

open VanadisCircularQueue VanadisBasicBranchUnit

/-- The queue answers like the bounded list, whichever way it reduces an index. -/
def FollowsFifo {α : Type u} (size : Nat) (data : Nat → α) (calls : List (QueueCall α)) : Prop :=
  answers call VanadisCircularQueue.count (.create size data) calls =
      answers (fifoCall size) length [] calls ∧
    ∀ sum, (VanadisCircularQueue.create size data).reduce sum = sum % size

/-- The list and the map agree after each call, and each call ends. -/
def KeepsTables (maxEntries : Nat) (calls : List Call) : Prop :=
  Throughout VanadisBasicBranchUnit.step (fun s => s.1.Consistent s.2)
      (.create maxEntries, fun _ => 0) calls ∧
    StepsMeet VanadisBasicBranchUnit.step (fun s => s.1.Completes)
      (.create maxEntries, fun _ => 0) calls

theorem keepsTables_iff (maxEntries : Nat) (calls : List Call) :
    KeepsTables maxEntries calls ↔ StepsMeet VanadisBasicBranchUnit.step (fun s => s.1.Serves)
        (.create maxEntries, fun _ => 0) calls :=
  throughout_and_stepsMeet_iff_of_invariant (fun _ hs => hs) (fun _ _ _ hs hstep => hs.step hstep)
    (fun _ c hs => hs.completes_iff c) (consistent_create maxEntries _)

theorem containers_iff {α : Type u} {size : Nat} (data : Nat → α) {queueCalls : List (QueueCall α)}
    (maxEntries : Nat) (branchCalls : List Call)
    (hpos : 0 < size)
    (hsize : size < 0x80000000)
    (hallowed : (answers (fifoCall size) length [] queueCalls).isSome) :
    FollowsFifo size data queueCalls ∧ KeepsTables maxEntries branchCalls ↔
      StepsMeet VanadisCircularQueue.step IndexFits (.create size data) queueCalls ∧
        StepsMeet VanadisBasicBranchUnit.step (fun s => s.1.Serves)
          (.create maxEntries, fun _ => 0) branchCalls := by
  refine and_congr ?_ (keepsTables_iff maxEntries branchCalls)
  unfold FollowsFifo
  rw [and_iff_left (reduce_create data hsize)]
  exact (holds_create data hpos hsize).answers_eq_iff hallowed

theorem containers_iff_threeSlots :
    FollowsFifo 3 (fun _ => 0) [.push 7, .push 8, .pop, .peekAt 0] ∧
      KeepsTables 1 [.push 0x400 0x440, .push 0x500 0x540, .predictAddress 0x500] :=
  (containers_iff _ _ _ (by decide) (by decide) (by decide)).2 ⟨by decide, by decide⟩

/-- The loop that looks for the older of two branches never ends. -/
theorem not_keepsTables_secondEntry :
    ¬ KeepsTables 64 [.push 0x400 0x440, .push 0x500 0x540, .reorder 0x400] := by
  rw [keepsTables_iff]
  decide

end

end SstElements.Vanadis
