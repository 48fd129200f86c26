import SstElements.Firefly.CollectiveTree
import SstElements.Library.MessageScripts
import SstElements.Library.RootedTree

/-!
# The tree of a group and the calls of each rank

Each rank computes its parent and its children on its own.  After rank 0 and the root have
changed places they are those of one tree over the numbers below the size of the group.
The script of a rank is what it asks of the message layer in a collective, and the data that
goes up and down the tree.
-/

namespace SstElements.Firefly

section Numbering

open Library List Nat

/-- The tree in which the children of a node follow each other. -/
def karyTree (degree size : Nat) : Library.RootedTree where
  size := size
  parent := fun w => (w - 1) / degree
  parent_lt := fun _ hw => (div_le_self _ _).trans_lt (sub_lt hw Nat.one_pos)

section Kary

variable {degree size v : Nat}

theorem mem_children_karyTree_iff (hdegree : 0 < degree) {w : Nat} :
    w ∈ (karyTree degree size).children v ↔
      w < size ∧ v * degree + 1 ≤ w ∧ w < v * degree + 1 + degree := by
  rw [Library.RootedTree.mem_children_iff]
  change w < size ∧ 0 < w ∧ (w - 1) / degree = v ↔ _
  refine and_congr_right fun _ => ⟨fun h => ?_, fun h => ⟨by omega, ?_⟩⟩
  · obtain ⟨hpos, rfl⟩ := h
    have hlow := div_mul_le_self (w - 1) degree
    have hhigh := lt_div_mul_add hdegree (a := w - 1)
    omega
  · rw [Nat.div_eq_iff hdegree]
    omega

theorem children_karyTree (hdegree : 0 < degree) :
    (karyTree degree size).children v =
      (range (Nat.min degree (size - (v * degree + 1)))).map fun i => v * degree + i + 1 := by
  refine List.Perm.eq_of_pairwise' (r := (· < ·)) ?_ ?_ ?_
  · exact List.Pairwise.filter _ pairwise_lt_range
  · exact pairwise_lt_range.map _ fun a b h => by omega
  · rw [perm_ext_iff_of_nodup (Library.RootedTree.nodup_children _ _)
      (nodup_range.map fun a b h => by simpa using h)]
    intro w
    rw [mem_children_karyTree_iff hdegree, mem_map]
    simp only [mem_range, Nat.lt_min]
    constructor
    · rintro ⟨hsize, hlow, hhigh⟩
      exact ⟨w - (v * degree + 1), by omega, by omega⟩
    · rintro ⟨i, hi, rfl⟩
      omega

end Kary

/-- The group has the root, and the numbers of all children that its ranks compute are `int`s. -/
structure TreeFits (degree size root : Nat) : Prop where
  degree_pos : 0 < degree
  root_lt : root < size
  children_lt : degree * size < 2 ^ 31

namespace YYY

variable {y : YYY} {i : Nat}

/-- The children of a rank in their order. -/
def children (y : YYY) : List Nat := (range y.numChildren).map y.calcChild

theorem myVirtRank_eq (y : YYY) : y.myVirtRank = Equiv.swap 0 y.root y.myRank := by
  unfold myVirtRank
  rw [Equiv.swap_apply_def]
  split_ifs <;> omega

theorem swap_lt {root size v : Nat} (hroot : root < size) :
    Equiv.swap 0 root v < size ↔ v < size := by
  rw [Equiv.swap_apply_def]
  split_ifs <;> omega

section

variable (h : TreeFits y.degree y.size y.root) (hrank : y.myRank < y.size)
include h hrank

/-- The number of a child does not wrap. -/
theorem child_lt (hi : i < y.degree) : y.myVirtRank * y.degree + i + 1 < 2 ^ 31 := by
  have hvirt : y.myVirtRank < y.size := by
    rw [myVirtRank_eq]
    exact (swap_lt h.root_lt).2 hrank
  have hmul := mul_le_mul_right y.degree (succ_le_of_lt hvirt)
  rw [Nat.succ_mul, mul_comm y.size] at hmul
  have hfits := h.children_lt
  omega

theorem calcChild_eq (hi : i < y.degree) :
    y.calcChild i = Equiv.swap 0 y.root (y.myVirtRank * y.degree + i + 1) := by
  unfold calcChild
  rw [Nat.mod_eq_of_lt ((child_lt h hrank hi).trans (by decide)), Equiv.swap_apply_def]

/-- The signed comparison finds the children that are ranks of the group. -/
theorem calcChild_lt_iff (hi : i < y.degree) :
    Int.bmod (y.calcChild i) (2 ^ 32) < y.size ↔ y.myVirtRank * y.degree + i + 1 < y.size := by
  have hchild := child_lt h hrank hi
  have hroot : y.root < 2 ^ 31 :=
    (h.root_lt.trans_le (Nat.le_mul_of_pos_left _ h.degree_pos)).trans h.children_lt
  have hlt : y.calcChild i < 2 ^ 31 := by
    rw [calcChild_eq h hrank hi, Equiv.swap_apply_def]
    split_ifs <;> omega
  rw [← swap_lt h.root_lt, ← calcChild_eq h hrank hi, Int.bmod_def]
  split <;> omega

theorem numChildren_eq :
    y.numChildren = Nat.min y.degree (y.size - (y.myVirtRank * y.degree + 1)) := by
  have hfilter : ((range y.degree).filter fun i =>
        decide (Int.bmod (y.calcChild i) (2 ^ 32) < y.size)) =
      range (Nat.min y.degree (y.size - (y.myVirtRank * y.degree + 1))) := by
    refine List.Perm.eq_of_pairwise' (r := (· < ·)) (List.Pairwise.filter _ pairwise_lt_range)
      pairwise_lt_range ?_
    rw [perm_ext_iff_of_nodup (nodup_range.filter _) nodup_range]
    intro i
    rw [mem_filter, mem_range, mem_range, decide_eq_true_eq, Nat.lt_min]
    refine and_congr_right fun hi => ?_
    rw [calcChild_lt_iff h hrank hi]
    omega
  rw [numChildren, hfilter, length_range]

/-- The children of a rank are those of its node. -/
theorem children_eq :
    y.children = ((karyTree y.degree y.size).children y.myVirtRank).map (Equiv.swap 0 y.root) := by
  rw [children, children_karyTree h.degree_pos, numChildren_eq h hrank, map_map]
  exact map_congr_left fun i hi => calcChild_eq h hrank (Nat.lt_min.1 (mem_range.1 hi)).1

end

theorem parent_eq (hdegree : 0 < y.degree) :
    y.parent = if 0 < y.myVirtRank then
        some (Equiv.swap 0 y.root ((karyTree y.degree y.size).parent y.myVirtRank))
      else none := by
  unfold parent
  split_ifs with hpos
  · dsimp only
    have hdiv : (y.myVirtRank - (if y.myVirtRank % y.degree = 0 then y.degree
        else y.myVirtRank % y.degree)) / y.degree = (y.myVirtRank - 1) / y.degree := by
      have hsplit := div_add_mod y.myVirtRank y.degree
      have hmod := mod_lt y.myVirtRank hdegree
      generalize y.myVirtRank = v at *
      generalize v / y.degree = q at hsplit
      split_ifs with hzero
      · have hq : 0 < q := by
          rcases Nat.eq_zero_or_pos q with rfl | hq
          · simp at hsplit
            omega
          · exact hq
        obtain ⟨q, rfl⟩ := exists_eq_succ_of_ne_zero hq.ne'
        have hv : v = y.degree * q + y.degree := by
          rw [Nat.mul_succ] at hsplit
          omega
        rw [show v - y.degree = y.degree * q by omega, Nat.mul_div_cancel_left _ hdegree,
          show v - 1 = y.degree - 1 + y.degree * q by omega, add_mul_div_left _ _ hdegree,
          div_eq_of_lt (by omega), zero_add]
      · rw [show v - v % y.degree = y.degree * q by omega, Nat.mul_div_cancel_left _ hdegree,
          show v - 1 = v % y.degree - 1 + y.degree * q by omega, add_mul_div_left _ _ hdegree,
          div_eq_of_lt (by omega), zero_add]
    rw [hdiv, Equiv.swap_apply_def]
    rfl
  · rfl

end YYY

/-- The ranks that are reached from a rank through the children. -/
def visit (degree size root : Nat) : Nat → Nat → List Nat
  | 0, _ => []
  | fuel + 1, rank =>
    rank :: (YYY.children ⟨degree, rank, size, root⟩).flatMap (visit degree size root fuel)

/-- The parents and the children of all ranks are those of one tree with the given root. -/
structure SpanningTree (degree size root : Nat) : Prop where
  top : YYY.parent ⟨degree, root, size, root⟩ = none
  inner : ∀ r < size, r ≠ root → ∃ p < size, YYY.parent ⟨degree, r, size, root⟩ = some p
  agree : ∀ c < size, ∀ p < size, c ∈ YYY.children ⟨degree, p, size, root⟩ ↔
    YYY.parent ⟨degree, c, size, root⟩ = some p
  members : ∀ p < size, ∀ c ∈ YYY.children ⟨degree, p, size, root⟩, c < size
  once : (visit degree size root size root).Perm (range size)

section Spanning

variable {degree size root : Nat}

/-- The recursion over calcChild visits the subtree of the k-ary tree. -/
theorem visit_eq (h : TreeFits degree size root) (fuel v : Nat)
    (hfuel : size ≤ v + fuel) (hv : v < size) :
    visit degree size root fuel (Equiv.swap 0 root v) =
      ((karyTree degree size).subtree v).map (Equiv.swap 0 root) := by
  induction fuel generalizing v with
  | zero =>
    omega
  | succ fuel ih =>
    have hvirt : (YYY.mk degree (Equiv.swap 0 root v) size root).myVirtRank = v := by
      rw [YYY.myVirtRank_eq]
      exact Equiv.swap_apply_self 0 root v
    rw [visit, YYY.children_eq h ((YYY.swap_lt h.root_lt).2 hv), hvirt,
      Library.RootedTree.subtree_eq, map_cons,
      map_flatMap, flatMap_map]
    congr 1
    refine flatMap_congr fun w hw => ?_
    have hlt := Library.RootedTree.lt_of_mem_children hw
    exact ih w (by omega) (Library.RootedTree.mem_children_iff.1 hw).1

/-- What the ranks compute on their own is one tree. -/
theorem spanningTree (h : TreeFits degree size root) : SpanningTree degree size root := by
  have hroot := h.root_lt
  have hvirt : ∀ r, (YYY.mk degree r size root).myVirtRank = Equiv.swap 0 root r :=
    fun r => YYY.myVirtRank_eq _
  have hparent : ∀ r, YYY.parent ⟨degree, r, size, root⟩ =
      if 0 < Equiv.swap 0 root r then
        some (Equiv.swap 0 root ((karyTree degree size).parent (Equiv.swap 0 root r)))
      else none := by
    intro r
    rw [YYY.parent_eq h.degree_pos, hvirt]
  have hchildren : ∀ r < size, YYY.children ⟨degree, r, size, root⟩ =
      ((karyTree degree size).children (Equiv.swap 0 root r)).map (Equiv.swap 0 root) := by
    intro r hr
    rw [YYY.children_eq h hr, hvirt]
  have hpos : ∀ r, r ≠ root → 0 < Equiv.swap 0 root r := by
    intro r hr
    rw [Equiv.swap_apply_def]
    split_ifs <;> omega
  refine ⟨?_, fun r hr hne => ?_, fun c hc p hp => ?_, fun p hp c hc => ?_, ?_⟩
  · rw [hparent, Equiv.swap_apply_right]
    rfl
  · rw [hparent, if_pos (hpos r hne)]
    refine ⟨_, (YYY.swap_lt hroot).2 ?_, rfl⟩
    exact ((karyTree degree size).parent_lt _ (hpos r hne)).trans ((YYY.swap_lt hroot).2 hr)
  · rw [hchildren p hp, hparent, mem_map]
    constructor
    · rintro ⟨w, hw, rfl⟩
      obtain ⟨-, hwpos, hwparent⟩ := Library.RootedTree.mem_children_iff.1 hw
      rw [Equiv.swap_apply_self, if_pos hwpos, hwparent, Equiv.swap_apply_self]
    · intro h
      split_ifs at h with hcpos
      refine ⟨Equiv.swap 0 root c, Library.RootedTree.mem_children_iff.2
        ⟨(YYY.swap_lt hroot).2 hc, hcpos, ?_⟩, Equiv.swap_apply_self 0 root c⟩
      rw [← Option.some.inj h, Equiv.swap_apply_self]
  · rw [hchildren p hp, mem_map] at hc
    obtain ⟨w, hw, rfl⟩ := hc
    exact (YYY.swap_lt hroot).2 (Library.RootedTree.mem_children_iff.1 hw).1
  · have hsize : 0 < size := (zero_le _).trans_lt hroot
    have hvisit := visit_eq h size 0 (by omega) hsize
    rw [Equiv.swap_apply_left] at hvisit
    rw [hvisit]
    refine ((Library.RootedTree.subtree_perm_range (t := karyTree degree size) hsize).map
      _).trans ?_
    rw [perm_ext_iff_of_nodup (nodup_range.map (Equiv.injective _)) nodup_range]
    intro w
    rw [mem_map]
    constructor
    · rintro ⟨v, hv, rfl⟩
      exact mem_range.2 ((YYY.swap_lt hroot).2 (mem_range.1 hv))
    · intro hw
      exact ⟨Equiv.swap 0 root w, mem_range.2 ((YYY.swap_lt hroot).2 (mem_range.1 hw)),
        Equiv.swap_apply_self 0 root w⟩

end Spanning

end Numbering

section Messages

open Library CollectiveTreeFuncSM

namespace TreeCollective

section Values

variable {T : Type} (k : TreeCollective T)

def treeRoot : Nat :=
  match k.type with
  | .Allreduce => 0
  | .Reduce | .Bcast => k.root

def yyy (r : Nat) : YYY := ⟨k.degree, r, k.size, k.treeRoot⟩

def tree : Library.RootedTree := karyTree k.degree k.size

/-- The node of a rank, and the rank of a node. -/
def relabel (r : Nat) : Nat := Equiv.swap 0 k.treeRoot r

def tag (r : Nat) : Nat := 0x30000000 + (k.seq r + 1) % 2 ^ 16

def startResult (r : Nat) : Buffer T := (k.startEvent r).result

variable [Add T] [LT T] [DecidableLT T] [Inhabited T]

/-- What a buffer for the data of a child holds. -/
def childInput (data : Payload T) : Nat → T := storeElements (data.getD []) fun _ => default

/-- The result of a rank after it has the data of its children. -/
def upResult (r : Nat) (ups : List (Payload T)) : Buffer T :=
  if ups.isEmpty then k.startResult r
  else
    match k.mydata r with
    | none => k.startResult r
    | some mydata =>
      (k.startResult r).bind fun result =>
        collectiveOp mydata (ups.map childInput) result k.count k.dtype k.op

/-- The data that the rank of a node sends up. -/
def upPayload : Nat → Payload T :=
  k.tree.fold fun v ups =>
    payload k.count
      (if ups.isEmpty then k.mydata (k.relabel v) else k.upResult (k.relabel v) ups)

/-- The data of the children of a node. -/
def ups (v : Nat) : List (Payload T) := (k.tree.children v).map k.upPayload

def afterUp (v : Nat) : Buffer T :=
  if k.type = .Bcast then k.startResult (k.relabel v)
  else k.upResult (k.relabel v) (k.ups v)

/-- The result of the rank of a node after it has the data of its parent. -/
def downResult (v : Nat) : Buffer T :=
  if 0 < v then copyIn (payload k.count (downResult (k.tree.parent v))) (k.afterUp v)
  else k.afterUp v
termination_by v
decreasing_by exact k.tree.parent_lt v (by assumption)

def finalResult (v : Nat) : Buffer T := if k.type = .Reduce then k.afterUp v else k.downResult v

end Values

section Calls

variable {T : Type} (k : TreeCollective T) (r : Nat)

def receiveCall (i : Nat) : TreeCall T :=
  ⟨[.recv (.recvUp i) ((k.yyy r).calcChild i) (k.tag r)], some []⟩

def receiveSlots : List TreeSlot := (List.range (k.yyy r).numChildren).map .recvUp

def sendSlots : List TreeSlot := (List.range (k.yyy r).numChildren).map .sendDown

def upPart : List (TreeCall T) :=
  if (k.yyy r).numChildren = 0 then []
  else (List.range' 0 (k.yyy r).numChildren).map (k.receiveCall r) ++
    [⟨[], some (k.receiveSlots r)⟩]

def recvPart : List (TreeCall T) :=
  if k.type = .Reduce then []
  else (k.yyy r).parent.toList.map fun p => ⟨[.recv .recvDown p (k.tag r)], some [.recvDown]⟩

def exitPart : List (TreeCall T) := [⟨[], none⟩]

variable [Add T] [LT T] [DecidableLT T] [Inhabited T]

def sendCall (i : Nat) : TreeCall T :=
  ⟨[.send (.sendDown i) ((k.yyy r).calcChild i) (k.tag r)
    (payload k.count (k.downResult (k.relabel r)))], some []⟩

def parentPart : List (TreeCall T) :=
  (k.yyy r).parent.toList.map fun p =>
    ⟨[.send .sendUp p (k.tag r) (k.upPayload (k.relabel r))], some [.sendUp]⟩

def downPart : List (TreeCall T) :=
  if k.type = .Reduce ∨ (k.yyy r).numChildren = 0 then []
  else (List.range' 0 (k.yyy r).numChildren).map (k.sendCall r) ++ [⟨[], some (k.sendSlots r)⟩]

def sendDownCalls : List (TreeCall T) := k.downPart r ++ exitPart

def waitDownCalls : List (TreeCall T) := k.recvPart r ++ k.sendDownCalls r

def sendUpCalls : List (TreeCall T) := k.parentPart r ++ k.waitDownCalls r

def script : List (TreeCall T) :=
  if r < k.size then
    if k.type = .Bcast then k.waitDownCalls r else k.upPart r ++ k.sendUpCalls r
  else []

end Calls

section Accepted

variable {T : Type} [Add T] [LT T] [DecidableLT T]

/-- The operation folds the elements with `g`. -/
def Computes (k : TreeCollective T) (g : T → T → T) : Prop :=
  ∀ (input : Nat → T) (rest : List (Nat → T)) (result : Nat → T),
    ∃ out, collectiveOp input rest result k.count k.dtype k.op = some out ∧
      ∀ c < k.count, out c = (rest.map fun x => x c).foldl g (input c)

/-- The root is a rank of the group, the ranks agree in the tag, the ranks that compute have a
buffer for the result, and the operation is one of its type of elements.  The number of the
elements is passed on as an `int`, and the length of their buffer is computed in 32 bits. -/
structure Accepted (k : TreeCollective T) (g : T → T → T) : Prop where
  tree : TreeFits k.degree k.size k.treeRoot
  count : k.count < 2 ^ 31
  length : k.count * Info.sizeofDataType k.dtype < 2 ^ 32
  counters : ∀ r < k.size, k.seq r % 2 ^ 16 = k.seq 0 % 2 ^ 16
  results : k.type ≠ .Bcast → ∀ r < k.size, (k.yyy r).numChildren ≠ 0 →
    (k.mydata r).isSome → (k.result r).isSome
  computes : k.type ≠ .Bcast → k.Computes g

end Accepted

section Good

variable {T : Type} [Add T] [LT T] [DecidableLT T] [Inhabited T]

/-- What a rank never changes. -/
structure Common (k : TreeCollective T) (r : Nat) (l : CollectiveTreeFuncSM T) : Prop where
  degree : l.degree = k.degree
  myRank : l.myRank = r
  size : l.size = k.size
  event : l.m_event = { k.startEvent r with result := l.m_event.result }
  started : l.started
  seq : l.m_seq = k.seq r + 1

/-- The data of the children as far as it has arrived. -/
def Collects (k : TreeCollective T) (r : Nat) (arrived : TreeSlot → Prop)
    (l : CollectiveTreeFuncSM T) : Prop :=
  ∀ i data, (k.ups (k.relabel r))[i]? = some data →
    (arrived (.recvUp i) → l.m_bufV i = copyIn data ((k.mydata r).map fun _ _ => default)) ∧
    (¬ arrived (.recvUp i) → l.m_bufV i = (k.mydata r).map fun _ _ => default)

/-- A machine in this state goes on with the sends to its children. -/
def GoesDown (k : TreeCollective T) (r : Nat) (l : CollectiveTreeFuncSM T) : Prop :=
  l.m_state = .SendDown ∨
    ((k.yyy r).parent = none ∧ (l.m_state = .SendUp ∨ l.m_state = .WaitDown))

/-- A rank between two calls. -/
inductive At (k : TreeCollective T) (r : Nat) : Option (List TreeSlot) → List (TreeCall T) →
    (TreeSlot → Prop) → CollectiveTreeFuncSM T → Prop
  | idle {arrived : TreeSlot → Prop} :
      (∀ slot, ¬ arrived slot) → At k r (some []) (k.script r) arrived (k.initial r)
  | posting {arrived : TreeSlot → Prop} {l : CollectiveTreeFuncSM T} {i : Nat} :
      Common k r l → k.type ≠ .Bcast → i ≤ (k.yyy r).numChildren → (k.yyy r).numChildren ≠ 0 →
      l.m_state = .WaitUp →
      l.m_waitUpState = (if i = (k.yyy r).numChildren then (.Waiting, 0) else (.Posting, i)) →
      l.m_sendDownState = (.Sending, 0) → l.m_event.result = k.startResult r →
      Collects k r arrived l → ¬ arrived .recvDown →
      At k r (some []) ((List.range' i ((k.yyy r).numChildren - i)).map (k.receiveCall r) ++
        ⟨[], some (k.receiveSlots r)⟩ :: k.sendUpCalls r) arrived l
  | waiting {arrived : TreeSlot → Prop} {l : CollectiveTreeFuncSM T} :
      Common k r l → k.type ≠ .Bcast → (k.yyy r).numChildren ≠ 0 → l.m_state = .WaitUp →
      l.m_waitUpState = (.DoOp, 0) → l.m_sendDownState = (.Sending, 0) →
      l.m_event.result = k.startResult r → Collects k r arrived l → ¬ arrived .recvDown →
      At k r (some (k.receiveSlots r)) (k.sendUpCalls r) arrived l
  | sentUp {arrived : TreeSlot → Prop} {l : CollectiveTreeFuncSM T} :
      Common k r l → k.type ≠ .Bcast → (k.yyy r).parent ≠ none → l.m_state = .WaitDown →
      l.m_sendDownState = (.Sending, 0) → l.m_event.result = k.afterUp (k.relabel r) →
      ¬ arrived .recvDown → At k r (some [.sendUp]) (k.waitDownCalls r) arrived l
  | receiving {arrived : TreeSlot → Prop} {l : CollectiveTreeFuncSM T} :
      Common k r l → k.type ≠ .Reduce → (k.yyy r).parent ≠ none → l.m_state = .SendDown →
      l.m_sendDownState = (.Sending, 0) →
      (arrived .recvDown → l.m_event.result = k.downResult (k.relabel r)) →
      (¬ arrived .recvDown → l.m_event.result = k.afterUp (k.relabel r)) →
      At k r (some [.recvDown]) (k.sendDownCalls r) arrived l
  | sending {arrived : TreeSlot → Prop} {l : CollectiveTreeFuncSM T} {i : Nat} :
      Common k r l → k.type ≠ .Reduce → i ≤ (k.yyy r).numChildren → (k.yyy r).numChildren ≠ 0 →
      GoesDown k r l →
      l.m_sendDownState = (if i = (k.yyy r).numChildren then (.Waiting, 0) else (.Sending, i)) →
      l.m_event.result = k.downResult (k.relabel r) →
      ((k.yyy r).parent = none ∨ arrived .recvDown) →
      At k r (some []) ((List.range' i ((k.yyy r).numChildren - i)).map (k.sendCall r) ++
        ⟨[], some (k.sendSlots r)⟩ :: exitPart) arrived l
  | waitingSent {arrived : TreeSlot → Prop} {l : CollectiveTreeFuncSM T} :
      Common k r l → k.type ≠ .Reduce → l.m_state = .Exit →
      l.m_event.result = k.finalResult (k.relabel r) →
      ((k.yyy r).parent = none ∨ arrived .recvDown) →
      At k r (some (k.sendSlots r)) exitPart arrived l
  | finished {arrived : TreeSlot → Prop} {l : CollectiveTreeFuncSM T} :
      Common k r l → l.m_event.result = k.finalResult (k.relabel r) →
      (k.type = .Reduce ∨ (k.yyy r).parent = none ∨ arrived .recvDown) →
      At k r none [] arrived l

/-- A step makes the first of some calls, and the rank goes on with the others. -/
def Continues (k : TreeCollective T) (r : Nat) (calls : List (TreeCall T))
    (arrived : TreeSlot → Prop) (step : Step T) : Prop :=
  ∃ call rest l, calls = call :: rest ∧ step = some (call, l) ∧ At k r call.waits rest arrived l

end Good

end TreeCollective

end Messages

end SstElements.Firefly
