import Mathlib.Tactic

/-!
# Rounds over components in a ring

A round visits components of a ring of `N` positions one after the other, from
a position on, until one of them gives something.  No component is visited
twice, so each visit finds its component as it was before the round.
-/

namespace SstElements.Library.RoundRobin

open Function Nat

universe u v

variable {α : Type u} {β : Type v}

/-- The position is one of the `n` that follow each other from `current` on. -/
def InTurn (N n current k : Nat) : Prop := ∃ i < n, k = (current + i) % N

theorem inTurn_self {N n current : Nat} (hcurrent : current < N) :
    InTurn N (n + 1) current current :=
  ⟨0, succ_pos n, (mod_eq_of_lt hcurrent).symm⟩

theorem InTurn.of_next {N n current k : Nat} (h : InTurn N n ((current + 1) % N) k) :
    InTurn N (n + 1) current k := by
  obtain ⟨i, hi, hk⟩ := h
  refine ⟨i + 1, succ_lt_succ hi, ?_⟩
  rw [hk, mod_add_mod]
  congr 1
  omega

theorem not_inTurn_next {N n current : Nat} (hcurrent : current < N) (hn : n + 1 ≤ N) :
    ¬ InTurn N n ((current + 1) % N) current := by
  rintro ⟨i, hi, hk⟩
  rw [mod_add_mod] at hk
  rcases lt_or_ge (current + 1 + i) N with hlt | hge
  · rw [mod_eq_of_lt hlt] at hk
    omega
  · rw [mod_eq_sub_mod hge, mod_eq_of_lt (by omega)] at hk
    omega

/--
A round of `n` visits from `current` on: what each component gave, what has
become of it, and the result of the round.
-/
structure Round
    (visit : Nat → α → Option β → α → Prop) (N n current : Nat)
    (before after : Nat → α) (outs : Nat → Option β) (result : Option β) :
    Prop where
  untouched : ∀ k, ¬ InTurn N n current k → after k = before k ∧ outs k = none
  visited : ∀ k, (after k = before k ∧ outs k = none) ∨
    visit k (before k) (outs k) (after k)
  given : ∀ k x, outs k = some x → result = some x
  found : ∀ x, result = some x → ∃ k, outs k = some x

namespace Round

variable {visit visit' : Nat → α → Option β → α → Prop}
variable {N n current : Nat} {before after : Nat → α}
variable {outs : Nat → Option β} {result : Option β}

theorem mono (h : Round visit N n current before after outs result)
    (himp : ∀ k a out a', visit k a out a' → visit' k a out a') :
    Round visit' N n current before after outs result :=
  ⟨h.untouched, fun k => (h.visited k).imp_right (himp _ _ _ _), h.given, h.found⟩

theorem done : Round visit N 0 current before before (fun _ => none) none :=
  ⟨fun _ _ => ⟨rfl, rfl⟩, fun _ => .inl ⟨rfl, rfl⟩,
    fun _ x h => absurd h.symm (Option.some_ne_none x),
    fun x h => absurd h.symm (Option.some_ne_none x)⟩

theorem stop {b : α} {x : β} (hcurrent : current < N)
    (hvisit : visit current (before current) (some x) b) :
    Round visit N (n + 1) current before (update before current b)
      (update (fun _ => none) current (some x)) (some x) := by
  constructor
  case untouched =>
      intro k hk
      have hne : k ≠ current := by
        rintro rfl
        exact hk (inTurn_self hcurrent)
      simp [hne]
  case visited =>
      intro k
      by_cases hk : k = current
      · subst hk
        simpa using hvisit
      · simp [hk]
  case given =>
      intro k y hy
      by_cases hk : k = current
      · subst hk
        simpa using hy
      · simp [hk] at hy
  case found =>
      intro y hy
      exact ⟨current, by simpa using hy⟩

theorem pass (h : Round visit N n ((current + 1) % N) before after outs result) :
    Round visit N (n + 1) current before after outs result :=
  ⟨fun k hk => h.untouched k fun hin => hk hin.of_next, h.visited, h.given, h.found⟩

/-- A round is a visit and the round of the ones after it. -/
theorem next {b : α} (hcurrent : current < N) (hn : n + 1 ≤ N)
    (hvisit : visit current (before current) none b)
    (h : Round visit N n ((current + 1) % N) (update before current b) after outs result) :
    Round visit N (n + 1) current before after outs result := by
  obtain ⟨hafter, hout⟩ := h.untouched current (not_inTurn_next hcurrent hn)
  rw [update_self] at hafter
  constructor
  case untouched =>
      intro k hk
      have hne : k ≠ current := by
        rintro rfl
        exact hk (inTurn_self hcurrent)
      have := h.untouched k fun hin => hk hin.of_next
      rwa [update_of_ne hne] at this
  case visited =>
      intro k
      by_cases hk : k = current
      · subst hk
        rw [hafter, hout]
        exact .inr hvisit
      · have := h.visited k
        rwa [update_of_ne hk] at this
  case given => exact h.given
  case found => exact h.found

end Round

end SstElements.Library.RoundRobin
