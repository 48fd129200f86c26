import Mathlib.Tactic

/-!
# Flat maps of bytes

A flat map gives every number a value.  `writeFrom` replaces the values from a
number on and `readFrom` lists them.  `answersOf` collects what a component
answers to a list of calls, and a simulation of each call gives the answers to
whole lists.
-/

namespace SstElements.Library

open Function List

universe u v w z

section FlatMap

variable {α : Type u}

/-- The map with the values at `x`, `x + 1` and so on replaced. -/
def writeFrom (f : Nat → α) (x : Nat) (values : List α) : Nat → α :=
  fun y => if x ≤ y then values[y - x]?.getD (f y) else f y

/-- The values at `x`, `x + 1` and so on. -/
def readFrom (f : Nat → α) (x n : Nat) : List α := (List.range n).map (fun i => f (x + i))

variable {f : Nat → α} {x y n : Nat} {v : α} {values : List α}

@[simp] theorem writeFrom_nil : writeFrom f x [] = f := by
  funext y
  simp [writeFrom]

theorem writeFrom_cons : writeFrom f x (v :: values) = writeFrom (update f x v) (x + 1) values := by
  funext y
  unfold writeFrom
  rcases lt_trichotomy y x with hlt | rfl | hgt
  · rw [if_neg (by omega), if_neg (by omega), update_of_ne (by omega)]
  · rw [if_pos le_rfl, if_neg (by omega), Nat.sub_self, update_self]
    rfl
  · have hsub : y - x = y - (x + 1) + 1 := by omega
    rw [if_pos (by omega), if_pos (by omega), hsub, getElem?_cons_succ, update_of_ne (by omega)]

theorem writeFrom_singleton : writeFrom f x [v] = update f x v := by
  rw [writeFrom_cons, writeFrom_nil]

theorem writeFrom_apply_of_lt (hx : x ≤ y) (hy : y - x < values.length) :
    writeFrom f x values y = values[y - x] := by
  unfold writeFrom
  rw [if_pos hx, getElem?_eq_getElem hy, Option.getD_some]

theorem writeFrom_apply_of_notMem (h : y < x ∨ x + values.length ≤ y) :
    writeFrom f x values y = f y := by
  unfold writeFrom
  split
  · rw [getElem?_eq_none (by omega), Option.getD_none]
  · rfl

@[simp] theorem readFrom_zero : readFrom f x 0 = [] := by
  rfl

theorem readFrom_succ : readFrom f x (n + 1) = f x :: readFrom f (x + 1) n := by
  unfold readFrom
  rw [range_succ_eq_map, map_cons, List.map_map, add_zero]
  congr 1
  apply map_congr_left
  intro i _
  rw [comp_apply, Nat.succ_eq_add_one]
  congr 1
  omega

end FlatMap

section Answers

variable {σ : Type u} {τ : Type v} {α : Type w} {β : Type z}

/-- What a component answers to a list of calls, none if a call fails. -/
def answersOf (step : σ → α → Option (β × σ)) : σ → List α → Option (List β)
  | _, [] => some []
  | s, a :: rest =>
    (step s a).bind (fun r => (answersOf step r.2 rest).map (r.1 :: ·))

/-- Stores related by a simulation answer every call sequence alike. -/
theorem answersOf_eq_of_simulation {step : σ → α → Option (β × σ)} {step' : τ → α → Option (β × τ)}
    {R : σ → τ → Prop} {P : α → Prop}
    (hstep : ∀ s t a, R s t → P a →
      ∃ b s' t', step s a = some (b, s') ∧ step' t a = some (b, t') ∧ R s' t')
    {s : σ} {t : τ} {calls : List α} (hR : R s t) (hcalls : ∀ a ∈ calls, P a) :
    ∃ bs, answersOf step s calls = some bs ∧ answersOf step' t calls = some bs := by
  induction calls generalizing s t with
  | nil =>
    exact ⟨[], rfl, rfl⟩
  | cons a rest ih =>
    obtain ⟨b, s', t', hs, ht, hR'⟩ := hstep s t a hR (hcalls a (by simp))
    obtain ⟨bs, hbs, hbs'⟩ := ih hR' (fun x hx => hcalls x (mem_cons_of_mem a hx))
    refine ⟨b :: bs, ?_, ?_⟩
    · simp [answersOf, hs, hbs]
    · simp [answersOf, ht, hbs']

end Answers

end SstElements.Library
