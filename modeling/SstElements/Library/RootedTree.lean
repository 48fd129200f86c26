import Mathlib.Tactic

/-!
# Trees over the first numbers

A tree on `0`, ..., `size - 1` is given by the parent of every node but `0`; the parent is
the smaller number.  The nodes below a node, and a value computed from the leaves up, follow
the children.
-/

namespace SstElements.Library

open List

structure RootedTree where
  size : Nat
  parent : Nat → Nat
  parent_lt : ∀ w, 0 < w → parent w < w

namespace RootedTree

variable {t : RootedTree} {u v w : Nat}

section Children

/-- The children of a node in ascending order. -/
def children (t : RootedTree) (v : Nat) : List Nat :=
  (range t.size).filter fun w => 0 < w ∧ t.parent w = v

theorem mem_children_iff : w ∈ t.children v ↔ w < t.size ∧ 0 < w ∧ t.parent w = v := by
  simp [children]

theorem lt_of_mem_children (h : w ∈ t.children v) : v < w := by
  obtain ⟨-, hpos, rfl⟩ := mem_children_iff.1 h
  exact t.parent_lt w hpos

theorem nodup_children (t : RootedTree) (v : Nat) : (t.children v).Nodup :=
  nodup_range.filter _

end Children

section Descends

/-- A node below another one, or the node itself. -/
inductive Descends (t : RootedTree) (v : Nat) : Nat → Prop
  | refl : Descends t v v
  | step {w : Nat} : 0 < w → Descends t v (t.parent w) → Descends t v w

theorem Descends.le (h : t.Descends v w) : v ≤ w := by
  induction h with
  | refl =>
    exact le_refl _
  | step hpos hdesc ih =>
    exact ih.trans (t.parent_lt _ hpos).le

theorem descends_root (t : RootedTree) (w : Nat) : t.Descends 0 w := by
  induction w using Nat.strong_induction_on with
  | _ w ih =>
    rcases Nat.eq_zero_or_pos w with rfl | hpos
    · exact .refl
    · exact .step hpos (ih _ (t.parent_lt w hpos))

theorem Descends.trans (h : t.Descends u v) (h' : t.Descends v w) : t.Descends u w := by
  induction h' with
  | refl =>
    exact h
  | step hpos hdesc ih =>
    exact .step hpos ih

/-- Ancestors of one vertex are on one path. -/
theorem Descends.linear (h : t.Descends u w) (h' : t.Descends v w) (hle : u ≤ v) :
    t.Descends u v := by
  induction h with
  | refl =>
    rw [le_antisymm hle h'.le]
    exact .refl
  | @step w hpos hdesc ih =>
    cases h' with
    | refl => exact .step hpos hdesc
    | step _ hdesc' => exact ih hdesc'

theorem eq_of_descends_children {a b : Nat} (ha : a ∈ t.children v) (hb : b ∈ t.children v)
    (hdesca : t.Descends a w) (hdescb : t.Descends b w) :
    a = b := by
  wlog hle : a ≤ b generalizing a b
  · exact (this hb ha hdescb hdesca (Nat.le_of_not_le hle)).symm
  cases hdesca.linear hdescb hle with
  | refl => rfl
  | step _ hdesc =>
    rw [(mem_children_iff.1 hb).2.2] at hdesc
    exact absurd hdesc.le (Nat.not_le_of_lt (lt_of_mem_children ha))

theorem Descends.exists_child (h : t.Descends v w) (hw : w < t.size) (hne : w ≠ v) :
    ∃ c ∈ t.children v, t.Descends c w := by
  induction h with
  | refl =>
    exact absurd rfl hne
  | @step w hpos hdesc ih =>
    by_cases heq : t.parent w = v
    · exact ⟨w, mem_children_iff.2 ⟨hw, hpos, heq⟩, .refl⟩
    · obtain ⟨c, hc, hbelow⟩ := ih ((t.parent_lt w hpos).trans hw) heq
      exact ⟨c, hc, .step hpos hbelow⟩

end Descends

section Subtree

/-- A node and the nodes below it, each child before the next one. -/
def subtree (t : RootedTree) (v : Nat) : List Nat :=
  v :: (t.children v).attach.flatMap fun w => t.subtree w.1
termination_by t.size - v
decreasing_by
  have hlt := (mem_children_iff.1 w.2).1
  have hlt' := lt_of_mem_children w.2
  omega

/-- Values that are computed from those of the children. -/
def fold {α : Type} (t : RootedTree) (f : Nat → List α → α) (v : Nat) : α :=
  f v ((t.children v).attach.map fun w => t.fold f w.1)
termination_by t.size - v
decreasing_by
  have hlt := (mem_children_iff.1 w.2).1
  have hlt' := lt_of_mem_children w.2
  omega

theorem subtree_eq (t : RootedTree) (v : Nat) :
    t.subtree v = v :: (t.children v).flatMap t.subtree := by
  rw [subtree, flatMap, attach_map_val, flatMap]

theorem fold_eq {α : Type} (t : RootedTree) (f : Nat → List α → α) (v : Nat) :
    t.fold f v = f v ((t.children v).map (t.fold f)) := by
  rw [fold, attach_map_val]

/-- Induction from the leaves to the root. -/
theorem induction_up {motive : Nat → Prop} (h : ∀ v, (∀ w ∈ t.children v, motive w) → motive v)
    (v : Nat) :
    motive v := by
  generalize hk : t.size - v = k
  induction k using Nat.strong_induction_on generalizing v with
  | _ k ih =>
    refine h v fun w hw => ih (t.size - w) ?_ w rfl
    have hlt := (mem_children_iff.1 hw).1
    have hlt' := lt_of_mem_children hw
    omega

theorem mem_subtree_iff (hv : v < t.size) : w ∈ t.subtree v ↔ w < t.size ∧ t.Descends v w := by
  induction v using induction_up (t := t) with
  | h v ih =>
    rw [subtree_eq, mem_cons, mem_flatMap]
    constructor
    · rintro (rfl | ⟨c, hc, hmem⟩)
      · exact ⟨hv, .refl⟩
      · obtain ⟨hlt, hpos, hparent⟩ := mem_children_iff.1 hc
        obtain ⟨hw, hdesc⟩ := (ih c hc hlt).1 hmem
        refine ⟨hw, .trans (.step hpos ?_) hdesc⟩
        rw [hparent]
        exact .refl
    · rintro ⟨hw, hdesc⟩
      by_cases hne : w = v
      · exact .inl hne
      · obtain ⟨c, hc, hbelow⟩ := hdesc.exists_child hw hne
        exact .inr ⟨c, hc, (ih c hc (mem_children_iff.1 hc).1).2 ⟨hw, hbelow⟩⟩

theorem nodup_subtree (t : RootedTree) (v : Nat) : (t.subtree v).Nodup := by
  induction v using induction_up (t := t) with
  | h v ih =>
    have hbelow : ∀ c ∈ t.children v, ∀ w ∈ t.subtree c, t.Descends c w := fun c hc w hw =>
      ((mem_subtree_iff (mem_children_iff.1 hc).1).1 hw).2
    rw [subtree_eq, nodup_cons, mem_flatMap, nodup_flatMap]
    refine ⟨?_, ih, ?_⟩
    · rintro ⟨c, hc, hmem⟩
      exact absurd (hbelow c hc v hmem).le (Nat.not_le_of_lt (lt_of_mem_children hc))
    · refine (t.nodup_children v).imp_of_mem fun {a b} ha hb hne w hwa hwb => hne ?_
      exact eq_of_descends_children ha hb (hbelow a ha w hwa) (hbelow b hb w hwb)

/-- The root's subtree is the whole tree. -/
theorem subtree_perm_range (h : 0 < t.size) : (t.subtree 0).Perm (range t.size) := by
  rw [perm_ext_iff_of_nodup (t.nodup_subtree 0) nodup_range]
  intro w
  rw [mem_subtree_iff h, mem_range]
  exact and_iff_left (t.descends_root w)

end Subtree

end RootedTree

section FoldOf

variable {α : Type} {op : α → α → α}

/-- A value that an operation computes from the elements of a list, in any grouping. -/
inductive FoldOf (op : α → α → α) : List α → α → Prop
  | single (x : α) : FoldOf op [x] x
  | node {l l' : List α} {x y : α} : FoldOf op l x → FoldOf op l' y → FoldOf op (l ++ l') (op x y)

theorem FoldOf.ne_nil {l : List α} {x : α} (h : FoldOf op l x) : l ≠ [] := by
  induction h with
  | single =>
    exact cons_ne_nil _ _
  | node _ _ ih _ =>
    exact append_ne_nil_of_left_ne_nil ih _

/-- Folds of the parts fold into one of the whole. -/
theorem FoldOf.foldl {ι : Type} {l : List α} {x : α} {f : ι → List α} {g : ι → α} (parts : List ι)
    (h : FoldOf op l x) (hparts : ∀ i ∈ parts, FoldOf op (f i) (g i)) :
    FoldOf op (l ++ parts.flatMap f) ((parts.map g).foldl op x) := by
  induction parts generalizing l x with
  | nil =>
    simpa using h
  | cons i parts ih =>
    have hnext := ih (h.node (hparts i mem_cons_self))
      fun j hj => hparts j (mem_cons_of_mem _ hj)
    simpa [append_assoc] using hnext

end FoldOf

end SstElements.Library
