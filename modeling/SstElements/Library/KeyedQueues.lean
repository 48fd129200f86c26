import SstElements.Library.OrderedContainer

/-!
# Queues by key

A map from keys to queues that are not empty.  A queue comes into being with its first
member and goes with its last one, so a key that is absent has the empty queue.
-/

namespace SstElements.Library

open List Option

universe u v

/-- A queue with a member in front. -/
structure NonemptyQueue (σ : Type u) where
  front : σ
  rest : List σ

def NonemptyQueue.toList {σ : Type u} (q : NonemptyQueue σ) : List σ := q.front :: q.rest

abbrev KeyedQueues (κ : Type v) [LinearOrder κ] (σ : Type u) := OrderedMap κ (NonemptyQueue σ)

namespace KeyedQueues

variable {κ : Type v} [LinearOrder κ] {σ : Type u}

def queue (m : KeyedQueues κ σ) (k : κ) : List σ := ((m.find? k).map NonemptyQueue.toList).getD []

def push (m : KeyedQueues κ σ) (k : κ) (s : σ) : KeyedQueues κ σ :=
  match m.find? k with
  | none => m.insert k ⟨s, []⟩
  | some q => m.insert k ⟨q.front, q.rest ++ [s]⟩

def pop (m : KeyedQueues κ σ) (k : κ) : Option (σ × KeyedQueues κ σ) :=
  match m.find? k with
  | none => none
  | some ⟨s, []⟩ => some (s, m.erase k)
  | some ⟨s, next :: rest⟩ => some (s, m.insert k ⟨next, rest⟩)

/-- Take members from the front, as long as there are any. -/
def popMany (m : KeyedQueues κ σ) (k : κ) : Nat → List σ × KeyedQueues κ σ
  | 0 => ([], m)
  | n + 1 =>
    match m.pop k with
    | none => ([], m)
    | some (s, m') =>
      let popped := popMany m' k n
      (s :: popped.1, popped.2)

variable {m m' : KeyedQueues κ σ} {k k' : κ} {s : σ}

theorem queue_push (m : KeyedQueues κ σ) (k k' : κ) (s : σ) :
    (m.push k s).queue k' = if k' = k then m.queue k ++ [s] else m.queue k' := by
  cases hfind : m.find? k with
  | none =>
    rw [push, hfind]
    rw [queue, OrderedMap.find?_insert]
    split
    · rw [queue, hfind]
      rfl
    · rfl
  | some q =>
    rw [push, hfind]
    rw [queue, OrderedMap.find?_insert]
    split
    · rw [queue, hfind]
      rfl
    · rfl

theorem pop_eq_none_iff : m.pop k = none ↔ m.queue k = [] := by
  cases hfind : m.find? k with
  | none => simp [pop, queue, hfind]
  | some q =>
    obtain ⟨front, rest⟩ := q
    cases rest <;> simp [pop, queue, hfind, NonemptyQueue.toList]

/-- A pop takes the oldest of one queue and leaves the others. -/
theorem queue_of_pop (h : m.pop k = some (s, m')) :
    m.queue k = s :: m'.queue k ∧ ∀ k', k' ≠ k → m'.queue k' = m.queue k' := by
  cases hfind : m.find? k with
  | none =>
    rw [pop, hfind] at h
    cases h
  | some q =>
    obtain ⟨front, rest⟩ := q
    cases rest with
    | nil =>
      rw [pop, hfind] at h
      cases h
      refine ⟨?_, fun k' hne => ?_⟩
      · rw [queue, queue, hfind, OrderedMap.find?_erase_self]
        rfl
      · rw [queue, queue, OrderedMap.find?_erase_of_ne m hne]
    | cons next rest =>
      rw [pop, hfind] at h
      cases h
      refine ⟨?_, fun k' hne => ?_⟩
      · rw [queue, queue, hfind, OrderedMap.find?_insert_self]
        rfl
      · rw [queue, queue, OrderedMap.find?_insert_of_ne m _ hne]

section Members

variable [DecidableEq σ]

/-- How often a member is in the queues. -/
def members (m : KeyedQueues κ σ) (x : σ) : Int := m.sumOf fun q => (q.toList.count x : Int)

@[simp] theorem members_empty (x : σ) : members (OrderedMap.empty : KeyedQueues κ σ) x = 0 :=
  rfl

theorem members_push (m : KeyedQueues κ σ) (k : κ) (s x : σ) :
    (m.push k s).members x = m.members x + ([s].count x : Int) := by
  cases hfind : m.find? k with
  | none =>
    rw [push, hfind]
    rw [members, OrderedMap.sumOf_insert_new _ _ hfind]
    rfl
  | some q =>
    have hcount : (NonemptyQueue.toList ⟨q.front, q.rest ++ [s]⟩).count x =
        q.toList.count x + [s].count x := by
      rw [← count_append]
      rfl
    rw [push, hfind]
    rw [members, OrderedMap.sumOf_insert _ _ hfind, hcount, members]
    push_cast
    abel

theorem members_of_pop (h : m.pop k = some (s, m')) (x : σ) :
    m'.members x = m.members x - ([s].count x : Int) := by
  cases hfind : m.find? k with
  | none =>
    rw [pop, hfind] at h
    cases h
  | some q =>
    obtain ⟨front, rest⟩ := q
    cases rest with
    | nil =>
      rw [pop, hfind] at h
      cases h
      rw [members, OrderedMap.sumOf_erase _ hfind]
      rfl
    | cons next rest =>
      rw [pop, hfind] at h
      obtain ⟨rfl, rfl⟩ := Prod.mk.inj (some.inj h)
      have hcount : (NonemptyQueue.toList ⟨front, next :: rest⟩).count x =
          [front].count x + (NonemptyQueue.toList ⟨next, rest⟩).count x := by
        rw [← count_append]
        rfl
      rw [members, OrderedMap.sumOf_insert _ _ hfind, hcount, members]
      push_cast
      abel

theorem members_nonneg (m : KeyedQueues κ σ) (x : σ) : 0 ≤ m.members x := by
  refine sum_nonneg fun y hy => ?_
  obtain ⟨e, -, rfl⟩ := List.mem_map.1 hy
  exact Int.natCast_nonneg _

theorem count_le_members (m : KeyedQueues κ σ) (k : κ) (x : σ) :
    ((m.queue k).count x : Int) ≤ m.members x := by
  cases hfind : m.find? k with
  | none =>
    rw [queue, hfind]
    exact members_nonneg m x
  | some q =>
    have herase := OrderedMap.sumOf_erase (fun q => (q.toList.count x : Int)) hfind
    have hnonneg := members_nonneg (m.erase k) x
    rw [members, herase] at hnonneg
    rw [queue, hfind, members]
    exact sub_nonneg.1 hnonneg

end Members

/-- Many pops take the oldest of one queue, in order. -/
theorem popMany_spec [DecidableEq σ] (m : KeyedQueues κ σ) (k : κ) (n : Nat) :
    (m.popMany k n).1 = (m.queue k).take n ∧
      ∀ x, (m.popMany k n).2.members x = m.members x - (((m.queue k).take n).count x : Int) := by
  induction n generalizing m with
  | zero => exact ⟨rfl, fun x => (sub_zero _).symm⟩
  | succ n ih =>
    cases hpop : m.pop k with
    | none =>
      have hnil := pop_eq_none_iff.1 hpop
      rw [popMany, hpop, hnil]
      exact ⟨rfl, fun x => (sub_zero _).symm⟩
    | some popped =>
      obtain ⟨s, m'⟩ := popped
      obtain ⟨hqueue, -⟩ := queue_of_pop hpop
      obtain ⟨htake, hmembers⟩ := ih m'
      rw [popMany, hpop, hqueue]
      refine ⟨?_, fun x => ?_⟩
      · rw [take_succ_cons, ← htake]
      · have hcount : ((s :: m'.queue k).take (n + 1)).count x =
            [s].count x + ((m'.queue k).take n).count x := by
          rw [take_succ_cons, ← count_append]
          rfl
        rw [hmembers, members_of_pop hpop, hcount]
        push_cast
        abel

end KeyedQueues

end SstElements.Library
