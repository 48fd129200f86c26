import Mathlib.Tactic

/-!
# Choosing a candidate of least weight

Two loops over a list of candidates that start from a limit: one keeps the
first candidate whose weight is below all before it, the other keeps every
candidate that has the least weight so far.
-/

namespace SstElements.Library.LeastWeight

open List

universe u v

variable {α : Type u} {W : Type v} [LinearOrder W]

def keepLess (weight : α → W) (best : W × Option α) (a : α) : W × Option α :=
  if weight a < best.1 then (weight a, some a) else best

/-- The first candidate of least weight, if any is below the limit. -/
def selectLeast (limit : W) (weight : α → W) (candidates : List α) : Option α :=
  (candidates.foldl (keepLess weight) (limit, none)).2

def keepEqual (weight : α → W) (best : W × List α) (a : α) : W × List α :=
  if weight a = best.1 then
    (best.1, best.2 ++ [a])
  else if weight a < best.1 then
    (weight a, [a])
  else
    best

/-- All candidates of least weight, if there are any up to the limit. -/
def selectAllLeast (limit : W) (weight : α → W) (candidates : List α) : List α :=
  (candidates.foldl (keepEqual weight) (limit, [])).2

variable {limit : W} {weight : α → W} {candidates : List α} {a : α}

theorem selectLeast_mem (h : selectLeast limit weight candidates = some a) : a ∈ candidates := by
  have hmem : ∀ a, (candidates.foldl (keepLess weight) (limit, none)).2 = some a →
      a ∈ candidates := by
    refine List.foldlRecOn (motive := fun best : W × Option α =>
      ∀ a, best.2 = some a → a ∈ candidates) _ _ (by simp) ?_
    intro best hbest b hb a ha
    unfold keepLess at ha
    split at ha
    · rw [← Option.some.inj ha]
      exact hb
    · exact hbest a ha
  exact hmem a h

theorem foldl_keepLess_isSome (candidates : List α) {best : W × Option α} (h : best.2.isSome) :
    (candidates.foldl (keepLess weight) best).2.isSome := by
  induction candidates generalizing best with
  | nil => exact h
  | cons a rest ih =>
    apply ih
    unfold keepLess
    split
    · rfl
    · exact h

/-- A candidate under the limit suffices. -/
theorem exists_selectLeast (hmem : a ∈ candidates) (hlt : weight a < limit) :
    ∃ b, selectLeast limit weight candidates = some b := by
  rw [← Option.isSome_iff_exists, selectLeast]
  induction candidates with
  | nil => cases hmem
  | cons b rest ih =>
    by_cases hb : weight b < limit
    · have hkeep : keepLess weight (limit, none) b = (weight b, some b) := by simp [keepLess, hb]
      rw [foldl_cons, hkeep]
      exact foldl_keepLess_isSome rest rfl
    · have hrest : a ∈ rest := by
        rcases mem_cons.mp hmem with rfl | hrest
        · exact absurd hlt hb
        · exact hrest
      have hkeep : keepLess weight (limit, none) b = (limit, none) := by simp [keepLess, hb]
      rw [foldl_cons, hkeep]
      exact ih hrest

theorem mem_of_mem_selectAllLeast (h : a ∈ selectAllLeast limit weight candidates) :
    a ∈ candidates := by
  have hmem : ∀ a ∈ (candidates.foldl (keepEqual weight) (limit, [])).2,
      a ∈ candidates := by
    refine List.foldlRecOn (motive := fun best : W × List α =>
      ∀ a ∈ best.2, a ∈ candidates) _ _ (by simp) ?_
    intro best hbest b hb a ha
    unfold keepEqual at ha
    split at ha
    · rcases mem_append.mp ha with ha | ha
      · exact hbest a ha
      · rw [mem_singleton.mp ha]
        exact hb
    · split at ha
      · rw [mem_singleton.mp ha]
        exact hb
      · exact hbest a ha
  exact hmem a h

theorem foldl_keepEqual_ne_nil (candidates : List α) {best : W × List α} (h : best.2 ≠ []) :
    (candidates.foldl (keepEqual weight) best).2 ≠ [] := by
  induction candidates generalizing best with
  | nil => exact h
  | cons a rest ih =>
    apply ih
    unfold keepEqual
    split
    · simp
    · split
      · simp
      · exact h

theorem selectAllLeast_ne_nil (hne : candidates ≠ []) (hle : ∀ a ∈ candidates, weight a ≤ limit) :
    selectAllLeast limit weight candidates ≠ [] := by
  obtain ⟨a, rest, rfl⟩ := exists_cons_of_ne_nil hne
  rw [selectAllLeast, foldl_cons]
  apply foldl_keepEqual_ne_nil
  unfold keepEqual
  split
  · simp
  · rename_i hneq
    have hlt : weight a < limit := lt_of_le_of_ne (hle a (by simp)) hneq
    simp [hlt]

end SstElements.Library.LeastWeight
