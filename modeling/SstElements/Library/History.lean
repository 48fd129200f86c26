import Mathlib.Data.List.Basic

/-!
# Histories

A history is a list that grows at its end.  `EachAfter Q` states a relation
between every entry and the entries before it; `inOrder kinds` says that events
of the given kinds occur one after the other, with any others between them.
-/

namespace SstElements.Library

section Past

open List

universe u

variable {α : Type u}

/-- What is in a history and is not its last entry came before. -/
theorem mem_of_mem_concat {past : List α} {x entry : α} (h : x ∈ past ++ [entry])
    (hne : x ≠ entry) :
    x ∈ past :=
  (mem_append.1 h).resolve_right fun hlast => hne (mem_singleton.1 hlast)

/-- Every entry is related to the entries before it. -/
def EachAfter (Q : List α → α → Prop) (history : List α) : Prop :=
  ∀ past entry rest, history = past ++ entry :: rest → Q past entry

theorem eachAfter_nil (Q : List α → α → Prop) : EachAfter Q [] := by
  intro past entry rest h
  simp at h

variable {Q : List α → α → Prop}

/-- One more entry asks the property of that entry only. -/
theorem eachAfter_concat_iff {history : List α} {entry : α} :
    EachAfter Q (history ++ [entry]) ↔ EachAfter Q history ∧ Q history entry := by
  constructor
  · intro h
    refine ⟨fun past x rest hx => ?_, h history entry [] rfl⟩
    refine h past x (rest ++ [entry]) ?_
    rw [hx, append_assoc, cons_append]
  · rintro ⟨hold, hnew⟩ past x rest hx
    rcases eq_nil_or_concat rest with rfl | ⟨rest, last, rfl⟩
    · obtain ⟨rfl, hlast⟩ := append_inj' hx rfl
      obtain rfl := head_eq_of_cons_eq hlast
      exact hnew
    · rw [concat_eq_append, ← cons_append, ← append_assoc] at hx
      exact hold past x rest (append_inj' hx rfl).1

theorem EachAfter.append {history more : List α} (h : EachAfter Q history)
    (hmore : ∀ past entry rest, more = past ++ entry :: rest → Q (history ++ past) entry) :
    EachAfter Q (history ++ more) := by
  intro past entry rest heq
  rcases append_eq_append_iff.1 heq with ⟨between, rfl, hbetween⟩ | ⟨between, rfl, hbetween⟩
  · exact hmore between entry rest hbetween
  · cases between with
    | nil =>
      have hfirst := hmore [] entry rest hbetween.symm
      rwa [append_nil, append_nil] at hfirst
    | cons head between =>
      obtain ⟨rfl, -⟩ := List.cons.inj hbetween
      exact h past entry between rfl

/-- An entry of the one kind came, and no entry of the other kind came after it. -/
def Since (start stop : α → Prop) (history : List α) : Prop :=
  ∃ past entry rest, history = past ++ entry :: rest ∧ start entry ∧ ∀ later ∈ rest, ¬ stop later

theorem not_since_nil (start stop : α → Prop) : ¬ Since start stop [] := by
  rintro ⟨past, entry, rest, heq, -⟩
  simp at heq

/-- A new entry starts, stops or leaves the period alone. -/
theorem since_concat_iff {start stop : α → Prop} {history : List α} {entry : α} :
    Since start stop (history ++ [entry]) ↔
      start entry ∨ (¬ stop entry ∧ Since start stop history) := by
  constructor
  · rintro ⟨past, first, rest, heq, hstart, hrest⟩
    rcases eq_nil_or_concat rest with rfl | ⟨rest, last, rfl⟩
    · obtain ⟨-, hlast⟩ := append_inj' heq rfl
      obtain rfl := head_eq_of_cons_eq hlast
      exact .inl hstart
    · rw [concat_eq_append] at heq hrest
      rw [← cons_append, ← append_assoc] at heq
      obtain ⟨rfl, hlast⟩ := append_inj' heq rfl
      obtain rfl := head_eq_of_cons_eq hlast
      refine .inr ⟨hrest entry (mem_append_right _ mem_cons_self), past, first, rest, rfl,
        hstart, fun later hlater => hrest later (mem_append_left _ hlater)⟩
  · rintro (hstart | ⟨hstop, past, first, rest, rfl, hstart, hrest⟩)
    · exact ⟨history, entry, [], rfl, hstart, by simp⟩
    · refine ⟨past, first, rest ++ [entry], by simp, hstart, fun later hlater => ?_⟩
      rcases mem_append.1 hlater with hlater | hlater
      · exact hrest later hlater
      · rw [mem_singleton.1 hlater]
        exact hstop

end Past

section Orders

open List

universe u

variable {α : Type u}

/-- Events of these kinds occur one after the other. -/
def inOrder : List (α → Bool) → List α → Bool
  | [], _ => true
  | _ :: _, [] => false
  | kind :: kinds, event :: history =>
    kind event && inOrder kinds history || inOrder (kind :: kinds) history

variable {kind : α → Bool} {kinds : List (α → Bool)} {history : List α} {event : α}

/-- A new entry may be the last of the kinds looked for. -/
theorem inOrder_concat_iff :
    inOrder (kinds ++ [kind]) (history ++ [event]) ↔
      inOrder (kinds ++ [kind]) history ∨ kind event ∧ inOrder kinds history := by
  induction history generalizing kinds with
  | nil =>
    cases kinds with
    | nil => simp [inOrder]
    | cons first kinds => cases kinds <;> simp [inOrder]
  | cons head history ih =>
    cases kinds with
    | nil =>
      have ih' := @ih []
      simp only [nil_append, inOrder, and_true] at ih'
      simp [inOrder, ih', or_assoc]
    | cons first kinds =>
      have hrest := @ih kinds
      have hall := @ih (first :: kinds)
      simp only [cons_append] at hall
      simp only [cons_append, inOrder, Bool.or_eq_true, Bool.and_eq_true, hrest, hall]
      tauto

theorem inOrder_of_forall₂ {wider more : List (α → Bool)}
    (hkinds : List.Forall₂ (fun p q => ∀ e, p e → q e) kinds wider)
    (h : inOrder (kinds ++ more) history) :
    inOrder wider history := by
  induction history generalizing kinds wider with
  | nil =>
    cases hkinds with
    | nil => rfl
    | cons => exact absurd h (by simp [inOrder])
  | cons head history ih =>
    cases hkinds with
    | nil => rfl
    | cons hfirst hrest =>
      simp only [cons_append, inOrder, Bool.or_eq_true, Bool.and_eq_true] at h ⊢
      rcases h with ⟨hhead, htail⟩ | hlater
      · exact .inl ⟨hfirst head hhead, ih hrest htail⟩
      · exact .inr (ih (.cons hfirst hrest) hlater)

end Orders

end SstElements.Library
