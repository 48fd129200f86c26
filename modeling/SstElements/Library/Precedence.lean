import Mathlib.Tactic

/-!
# Precedence in a list

`Precedes a b l` says that some occurrence of `a` in `l` comes before one of
`b`.  Logs grow at their end, so the rules are about appending.

In a priority list each round serves some elements, and these move behind all
others.  An element that waits is overtaken by another one at most once.
-/

namespace SstElements.Library

section Occurrences

open List

universe u v

variable {α : Type u} {β : Type v}

/-- `a` occurs before `b` in `l`. -/
def Precedes (a b : α) (l : List α) : Prop := List.Sublist [a, b] l

namespace Precedes

variable {a b : α} {l m : List α}

theorem mem_left (h : Precedes a b l) : a ∈ l :=
  List.Sublist.subset h (by simp)

theorem mem_right (h : Precedes a b l) : b ∈ l :=
  List.Sublist.subset h (by simp)

theorem append_right (h : Precedes a b l) : Precedes a b (l ++ m) :=
  List.Sublist.trans h (sublist_append_left l m)

theorem append_left (h : Precedes a b m) : Precedes a b (l ++ m) :=
  List.Sublist.trans h (sublist_append_right l m)

theorem of_mem_of_mem (ha : a ∈ l) (hb : b ∈ m) : Precedes a b (l ++ m) := by
  have ha' : List.Sublist [a] l := singleton_sublist.2 ha
  have hb' : List.Sublist [b] m := singleton_sublist.2 hb
  exact List.Sublist.append ha' hb'

theorem ne (hl : l.Nodup) (h : Precedes a b l) : a ≠ b := by
  have hab : [a, b].Nodup := hl.sublist h
  simpa using hab

theorem map (f : α → β) (h : Precedes a b l) : Precedes (f a) (f b) (l.map f) :=
  List.Sublist.map f h

end Precedes

variable {l : List α}

theorem precedes_concat_iff {a b x : α} :
    Precedes a b (l ++ [x]) ↔ Precedes a b l ∨ (a ∈ l ∧ b = x) := by
  constructor
  · intro h
    obtain ⟨l₁, l₂, heq, h₁, h₂⟩ := sublist_append_iff.1 h
    rcases l₁ with _ | ⟨y, _ | ⟨z, l₁⟩⟩
    · have hlen := h₂.length_le
      simp only [nil_append] at heq
      simp [← heq] at hlen
    · obtain ⟨rfl, rfl⟩ : a = y ∧ [b] = l₂ := by simpa using heq
      refine .inr ⟨singleton_sublist.1 h₁, ?_⟩
      simpa using singleton_sublist.1 h₂
    · obtain ⟨rfl, rfl, hrest⟩ : a = y ∧ b = z ∧ [] = l₁ ++ l₂ := by simpa using heq
      obtain ⟨rfl, rfl⟩ := append_eq_nil_iff.1 hrest.symm
      exact .inl h₁
  · rintro (h | ⟨ha, rfl⟩)
    · exact h.append_right
    · exact Precedes.of_mem_of_mem ha (by simp)

theorem Precedes.trans {a b c : α} (hab : Precedes a b l) (hl : l.Nodup) (hbc : Precedes b c l) :
    Precedes a c l := by
  induction l with
  | nil =>
    cases hab.mem_left
  | cons x rest ih =>
    obtain ⟨hx, hrest⟩ := nodup_cons.1 hl
    cases hbc with
    | cons _ hbc =>
      cases hab with
      | cons _ hab =>
        exact List.Sublist.cons _ (ih hab hrest hbc)
      | cons_cons _ hab =>
        have hc : c ∈ rest := hbc.subset (by simp)
        exact List.Sublist.cons_cons _ (singleton_sublist.2 hc)
    | cons_cons _ hbc =>
      cases hab with
      | cons _ hab =>
        exact absurd (hab.subset (by simp)) hx
      | cons_cons _ hab =>
        exact absurd (hab.subset (by simp)) hx

theorem precedes_of_pairwise {r : α → α → Prop} {a b : α} (hr : ∀ x y, r x y → ¬ r y x)
    (hl : l.Pairwise r) (ha : a ∈ l) (hb : b ∈ l) (hab : r a b) :
    Precedes a b l := by
  induction l with
  | nil =>
    cases ha
  | cons x rest ih =>
    obtain ⟨hx, hrest⟩ := pairwise_cons.1 hl
    rcases mem_cons.1 ha with rfl | ha'
    · rcases mem_cons.1 hb with rfl | hb'
      · exact absurd hab (hr _ _ hab)
      · exact List.Sublist.cons_cons _ (singleton_sublist.2 hb')
    · rcases mem_cons.1 hb with rfl | hb'
      · exact absurd hab (hr _ _ (hx a ha'))
      · exact List.Sublist.cons _ (ih hrest ha' hb')

end Occurrences

namespace PriorityList

open List

universe u

variable {α : Type u} {served : α → Bool} {l : List α} {p q : α}

/-- What is not served keeps its order; what is served comes last, in reverse. -/
def serve (served : α → Bool) (l : List α) : List α :=
  l.filter (fun x => !served x) ++ (l.filter served).reverse

/-- The list after several rounds. -/
def serveAll (rounds : List (α → Bool)) (l : List α) : List α :=
  rounds.foldl (fun l served => serve served l) l

/-- A pair with higher priority is served in a round that leaves the other one out. -/
def Overtakes (served : α → Bool) (l : List α) (q p : α) : Prop :=
  Precedes q p l ∧ served q = true ∧ served p = false

theorem serve_none (h : ∀ x ∈ l, served x = false) : serve served l = l := by
  have hall : l.filter (fun x => !served x) = l :=
    filter_eq_self.mpr (fun x hx => by rw [h x hx]; rfl)
  have hnone : l.filter served = [] := filter_eq_nil_iff.mpr (fun x hx => by rw [h x hx]; decide)
  rw [serve, hall, hnone, reverse_nil, append_nil]

theorem serve_perm (served : α → Bool) (l : List α) : (serve served l).Perm l := by
  have hsplit := filter_append_perm served l
  exact (perm_append_comm.trans ((reverse_perm _).append_right _)).trans hsplit

theorem serveAll_perm (rounds : List (α → Bool)) (l : List α) : (serveAll rounds l).Perm l := by
  induction rounds generalizing l with
  | nil => exact .refl l
  | cons served rounds ih => exact (ih _).trans (serve_perm served l)

/-- One served goes behind one not served. -/
theorem precedes_serve (hp : p ∈ l) (hq : q ∈ l) (hunserved : served p = false)
    (hserved : served q = true) :
    Precedes p q (serve served l) := by
  refine Precedes.of_mem_of_mem ?_ ?_
  · simp [mem_filter, hp, hunserved]
  · simp [mem_filter, hq, hserved]

theorem precedes_serve_of_precedes (h : Precedes p q l) (hunserved : served p = false) :
    Precedes p q (serve served l) := by
  cases hq : served q with
  | true => exact precedes_serve h.mem_left h.mem_right hunserved hq
  | false =>
    have hfilter := List.Sublist.filter (fun x => !served x) h
    simp only [List.filter, hunserved, hq, Bool.not_false] at hfilter
    exact Precedes.append_right hfilter

variable {rounds : List (α → Bool)}

/-- Who waits through all rounds stays ahead. -/
theorem precedes_serveAll (h : Precedes p q l) (hwaits : ∀ served ∈ rounds, served p = false) :
    Precedes p q (serveAll rounds l) := by
  induction rounds generalizing l with
  | nil => exact h
  | cons served rounds ih =>
    obtain ⟨hnow, hlater⟩ := forall_mem_cons.mp hwaits
    exact ih (precedes_serve_of_precedes h hnow) hlater

theorem not_precedes_of_precedes (hl : l.Nodup) (h : Precedes p q l) : ¬ Precedes q p l :=
  fun hqp => Precedes.ne hl (h.trans hl hqp) rfl

/-- Who is overtaken twice by the same one was served in between. -/
theorem served_between {served' : α → Bool} (hl : l.Nodup) (hfirst : Overtakes served l q p)
    (hsecond : Overtakes served' (serveAll rounds (serve served l)) q p) :
    ∃ served ∈ rounds, served p = true := by
  by_contra hwaits
  have hwaits' : ∀ served ∈ rounds, served p = false :=
    fun served hserved => Bool.eq_false_of_not_eq_true (fun h => hwaits ⟨served, hserved, h⟩)
  have hahead : Precedes p q (serve served l) :=
    precedes_serve hfirst.1.mem_right hfirst.1.mem_left hfirst.2.2 hfirst.2.1
  have hnodup : (serveAll rounds (serve served l)).Nodup :=
    ((serveAll_perm _ _).trans (serve_perm _ _)).nodup_iff.mpr hl
  exact not_precedes_of_precedes hnodup (precedes_serveAll hahead hwaits') hsecond.1

end PriorityList

end SstElements.Library
