import Mathlib.Tactic

/-!
# Heaps of references

A `std::priority_queue` of pointers orders its elements by keys that are stored
elsewhere.  Pushing and popping are only meaningful while the elements are a
heap for the keys of the moment, so a change of keys has to keep their order.
-/

namespace SstElements.Library

open List

universe u v

variable {α : Type u} {κ : Type v} [LinearOrder κ]

/-- No element is smaller than the one above it in the tree. -/
def IsHeap (key : α → κ) (q : List α) : Prop :=
  ∀ i a b, 0 < i → q[i]? = some a → q[(i - 1) / 2]? = some b → key b ≤ key a

variable {key key' : α → κ} {q : List α}

theorem IsHeap.front_le {t a : α} (h : IsHeap key q) (ht : q.head? = some t) (ha : a ∈ q) :
    key t ≤ key a := by
  obtain ⟨i, hi⟩ := mem_iff_getElem?.mp ha
  clear ha
  induction i using Nat.strongRecOn generalizing a with
  | ind i ih =>
    rcases Nat.eq_zero_or_pos i with rfl | hpos
    · rw [head?_eq_getElem?, hi] at ht
      rw [Option.some.inj ht]
    · have hlt : (i - 1) / 2 < i := by omega
      have hlen : i < q.length := (List.getElem?_eq_some_iff.mp hi).1
      obtain ⟨b, hparent⟩ : ∃ b, q[(i - 1) / 2]? = some b :=
        ⟨_, getElem?_eq_getElem (hlt.trans hlen)⟩
      exact (ih _ hlt hparent).trans (h i a b hpos hi hparent)

theorem IsHeap.of_order (h : IsHeap key q)
    (horder : ∀ a ∈ q, ∀ b ∈ q, key b ≤ key a → key' b ≤ key' a) :
    IsHeap key' q :=
  fun i a b hi ha hb => horder a (mem_of_getElem? ha) b (mem_of_getElem? hb) (h i a b hi ha hb)

/-- Only the keys of what is queued matter. -/
theorem isHeap_congr (hkey : ∀ a ∈ q, key' a = key a) (h : IsHeap key q) : IsHeap key' q :=
  h.of_order fun a ha b hb hle => by rwa [hkey a ha, hkey b hb]

/-- `push` and `pop` of a priority queue whose smallest element is at the front. -/
structure HeapOps (α : Type u) (κ : Type v) [LinearOrder κ] where
  push : (α → κ) → List α → α → List α
  pop : (α → κ) → List α → List α
  push_perm : ∀ key q a, IsHeap key q → (push key q a).Perm (a :: q)
  push_heap : ∀ key q a, IsHeap key q → IsHeap key (push key q a)
  pop_perm : ∀ key t q, IsHeap key (t :: q) → (pop key (t :: q)).Perm q
  pop_heap : ∀ key t q, IsHeap key (t :: q) → IsHeap key (pop key (t :: q))

section Sorted

end Sorted

end SstElements.Library
