import SstElements.Vanadis.MemoryIssue

/-!
# The order in which memory operations enter the queue

The issue stage is taken call by call, whatever the units and the load/store queue
accept.  What a thread has retired and pushed since its last squash is history: the
pushes are the first memory operations of the thread in program order.
-/

namespace SstElements.Vanadis

open Library Function List Option

universe u

variable {Op : Type u} {hw_threads : Nat}

section Places

def memoryPlaces (entered : List VanadisFunctionalUnitType) (n : Nat) : List Nat :=
  (range n).filter fun i => (entered[i]?).any (·.isMemory)

variable {entered more : List VanadisFunctionalUnitType} {a b : Nat}

theorem memoryPlaces_prefix (hle : a ≤ b) : memoryPlaces entered a <+: memoryPlaces entered b := by
  obtain ⟨k, rfl⟩ := Nat.exists_eq_add_of_le hle
  rw [memoryPlaces, memoryPlaces, range_add, filter_append]
  exact prefix_append _ _

theorem memoryPlaces_eq (hle : a ≤ b)
    (h : ∀ i t, a ≤ i → i < b → entered[i]? = some t → t.isMemory = false) :
    memoryPlaces entered b = memoryPlaces entered a := by
  obtain ⟨k, rfl⟩ := Nat.exists_eq_add_of_le hle
  rw [memoryPlaces, memoryPlaces, range_add, filter_append]
  refine append_right_eq_self.2 (filter_eq_nil_iff.2 fun i hi => ?_)
  obtain ⟨j, hj, rfl⟩ := mem_map.1 hi
  rw [mem_range] at hj
  cases ht : entered[a + j]? with
  | none => simp
  | some t => simp [h (a + j) t (Nat.le_add_right _ _) (by omega) ht]

theorem memoryPlaces_succ (h : (entered[a]?).any (·.isMemory) = true) :
    memoryPlaces entered (a + 1) = memoryPlaces entered a ++ [a] := by
  rw [memoryPlaces, range_succ, filter_append]
  exact congrArg (memoryPlaces entered a ++ ·) (filter_cons_of_pos h)

theorem memoryPlaces_append (hle : a ≤ entered.length) :
    memoryPlaces (entered ++ more) a = memoryPlaces entered a := by
  refine filter_congr fun i hi => ?_
  rw [getElem?_append_left ((mem_range.1 hi).trans_le hle)]

end Places

section Threads

/-- The instruction has made progress; a memory operation executes only once issued. -/
structure VanadisInstruction.Kept (ins ins' : VanadisInstruction Op) : Prop where
  func_type : ins'.func_type = ins.func_type
  hasIssued : ins'.hasIssued = ins.hasIssued
  hasExecuted : ins.func_type.isMemory = true → ins'.hasExecuted = true →
    ins.hasExecuted = true ∨ ins.hasIssued = true

variable {ins ins' : VanadisInstruction Op}

theorem VanadisInstruction.Progress.kept (h : Progress ins ins') :
    Kept ins ins' :=
  ⟨h.func_type, h.hasIssued, fun hmem hdone => .inl (h.hasExecuted hmem ▸ hdone)⟩

/-- The instructions that have entered the buffer, those that have left it first. -/
def enteredTypes
    (retired : List VanadisFunctionalUnitType) (rob : List (VanadisInstruction Op)) :
    List VanadisFunctionalUnitType :=
  retired ++ rob.map (·.func_type)

/-- What a thread has pushed are the memory operations before place `n`, and the others
of its buffer have not issued. -/
structure Front
    (retired : List VanadisFunctionalUnitType) (pushed : List Nat)
    (rob : List (VanadisInstruction Op)) (n : Nat) : Prop where
  executed : ∀ x ∈ rob, x.func_type.isMemory = true → x.hasExecuted = true →
    x.hasIssued = true
  first_le : retired.length ≤ n
  le_next : n ≤ retired.length + rob.length
  places : pushed = memoryPlaces (enteredTypes retired rob) n
  issued : ∀ i x, rob[i]? = some x → x.func_type.isMemory = true →
    (x.hasIssued = true ↔ retired.length + i < n)

namespace Front

variable {retired : List VanadisFunctionalUnitType} {pushed : List Nat} {n k : Nat}
variable {rob rob' : List (VanadisInstruction Op)}

theorem empty : Front [] [] ([] : List (VanadisInstruction Op)) 0 where
  executed := by simp
  first_le := le_rfl
  le_next := le_rfl
  places := rfl
  issued := by simp

theorem enteredTypes_getElem? (i : Nat) :
    (enteredTypes retired rob)[retired.length + i]? = rob[i]?.map (·.func_type) := by
  rw [enteredTypes, getElem?_append_right (Nat.le_add_right _ _),
    Nat.add_sub_cancel_left, getElem?_map]

section

variable (h : Front retired pushed rob n)
include h

theorem pass {n' : Nat} (hle : n ≤ n')
    (hpassed : ∀ i x, rob[i]? = some x → retired.length + i < n' →
      x.func_type.isMemory = true → x.hasIssued = true) :
    pushed = memoryPlaces (enteredTypes retired rob) n' := by
  have hfirst := h.first_le
  rw [h.places]
  refine (memoryPlaces_eq hle fun i t hi hlt ht => ?_).symm
  obtain ⟨j, rfl⟩ := Nat.exists_eq_add_of_le (hfirst.trans hi)
  rw [enteredTypes_getElem?, map_eq_some_iff] at ht
  obtain ⟨x, hx, rfl⟩ := ht
  refine Bool.eq_false_iff.2 fun hmem => ?_
  have hissued := (h.issued j x hx hmem).1 (hpassed j x hx hlt hmem)
  omega

theorem advance (hk : k ≤ rob.length) (hleft : ∀ x ∈ rob.take k, x.hasExecuted = true)
    (hrob : List.Forall₂ VanadisInstruction.Kept (rob.drop k) rob') :
    Front (retired ++ (rob.take k).map (·.func_type)) pushed rob'
      (max n (retired.length + k)) := by
  have hlen := hrob.length_eq
  rw [length_drop] at hlen
  have htypes : rob'.map (·.func_type) = (rob.drop k).map (·.func_type) := by
    refine ext_getElem (by simp [hlen]) fun i hi hi' => ?_
    rw [getElem_map, getElem_map]
    exact (hrob.get (by simpa using hi') (by simpa using hi)).func_type
  have hentered : enteredTypes (retired ++ (rob.take k).map (·.func_type)) rob' =
      enteredTypes retired rob := by
    rw [enteredTypes, htypes, append_assoc, ← map_append, take_append_drop]
    rfl
  have hretired : (retired ++ (rob.take k).map (·.func_type)).length = retired.length + k := by
    rw [length_append, length_map, length_take_of_le hk]
  have hold : ∀ i x', rob'[i]? = some x' → ∃ x, rob[k + i]? = some x ∧ x.Kept x' := by
    intro i x' hx'
    obtain ⟨hi, rfl⟩ := List.getElem?_eq_some_iff.1 hx'
    have hkept := hrob.get (by rw [length_drop]; omega) hi
    rw [get_eq_getElem, getElem_drop] at hkept
    exact ⟨_, getElem?_eq_getElem (by omega), hkept⟩
  have hnext := h.le_next
  exact {
    executed := fun x' hx' hmem hdone => by
      obtain ⟨i, hi⟩ := getElem?_of_mem hx'
      obtain ⟨x, hx, hkept⟩ := hold i x' hi
      rw [hkept.func_type] at hmem
      rw [hkept.hasIssued]
      exact (hkept.hasExecuted hmem hdone).elim
        (h.executed x (mem_of_getElem? hx) hmem) id
    first_le := hretired ▸ le_max_right _ _
    le_next := by
      rw [hretired]
      omega
    places := by
      rw [hentered]
      refine h.pass (le_max_left _ _) fun i x hx hlt hmem => ?_
      rcases lt_max_iff.1 hlt with hlt | hlt
      · exact (h.issued i x hx hmem).2 hlt
      · refine h.executed x (mem_of_getElem? hx) hmem (hleft x ?_)
        exact mem_of_getElem? (i := i) (by rw [getElem?_take_of_lt (by omega), hx])
    issued := fun i x' hx' hmem => by
      obtain ⟨x, hx, hkept⟩ := hold i x' hx'
      rw [hkept.hasIssued, h.issued _ x hx (hkept.func_type ▸ hmem), hretired, lt_max_iff]
      omega }

theorem progress (hrob : List.Forall₂ VanadisInstruction.Kept rob rob') :
    ∃ n', Front retired pushed rob' n' := by
  have hadvance := @advance _ _ _ _ 0 rob rob' h (Nat.zero_le _) (by simp) hrob
  rw [take_zero, map_nil, append_nil] at hadvance
  exact ⟨_, hadvance⟩

theorem append (bundle : List (MicroOp Op)) :
    Front retired pushed (rob ++ bundle.map MicroOp.clone) n := by
  have hnew : ∀ x ∈ bundle.map MicroOp.clone, x.hasIssued = false ∧ x.hasExecuted = false := by
    intro x hx
    obtain ⟨uop, -, rfl⟩ := mem_map.1 hx
    exact ⟨rfl, rfl⟩
  have hnext := h.le_next
  exact {
    executed := fun x hx hmem hdone => by
      rcases mem_append.1 hx with hx | hx
      · exact h.executed x hx hmem hdone
      · rw [(hnew x hx).2] at hdone
        cases hdone
    first_le := h.first_le
    le_next := by
      rw [length_append]
      omega
    places := by
      rw [enteredTypes, map_append, ← append_assoc, memoryPlaces_append, h.places]
      · rfl
      · rwa [length_append, length_map]
    issued := fun i x hx hmem => by
      rcases lt_or_ge i rob.length with hlt | hge
      · rw [getElem?_append_left hlt] at hx
        exact h.issued i x hx hmem
      · rw [getElem?_append_right hge] at hx
        refine iff_of_false ?_ (by omega)
        rw [(hnew x (mem_of_getElem? hx)).1]
        exact Bool.false_ne_true }

end

theorem take {before post : List (VanadisInstruction Op)}
    (h : Front retired pushed (before ++ ins :: post) n) (htype : ins'.func_type = ins.func_type)
    (hnot : ins.hasIssued = false) (hissued : ins'.hasIssued = true)
    (hbefore : ins.func_type.isMemory = true → ∀ x ∈ before, x.func_type.isMemory = true →
      x.hasIssued = true) :
    Front retired
      (if ins.func_type.isMemory then pushed ++ [retired.length + before.length] else pushed)
      (before ++ ins' :: post)
      (if ins.func_type.isMemory then retired.length + before.length + 1 else n) := by
  have hget : (before ++ ins :: post)[before.length]? = some ins := by
    rw [getElem?_append_right le_rfl, Nat.sub_self]
    rfl
  have hentered : enteredTypes retired (before ++ ins' :: post) =
      enteredTypes retired (before ++ ins :: post) := by
    simp only [enteredTypes, map_append, map_cons, htype]
  have hcases : ∀ i x, (before ++ ins' :: post)[i]? = some x →
      i = before.length ∧ x = ins' ∨
        i ≠ before.length ∧ (before ++ ins :: post)[i]? = some x := by
    intro i x hx
    have hset : before ++ ins' :: post = (before ++ ins :: post).set before.length ins' := by
      rw [set_append_right _ _ le_rfl, Nat.sub_self, set_cons_zero]
    rw [hset, getElem?_set] at hx
    split at hx
    case isTrue heq =>
      rw [if_pos (by simp)] at hx
      exact .inl ⟨heq.symm, (some.inj hx).symm⟩
    case isFalse hne => exact .inr ⟨fun heq => hne heq.symm, hx⟩
  have hexec : ∀ x ∈ before ++ ins' :: post, x.func_type.isMemory = true →
      x.hasExecuted = true → x.hasIssued = true := by
    intro x hx hmem hdone
    obtain ⟨i, hi⟩ := getElem?_of_mem hx
    rcases hcases i x hi with ⟨-, rfl⟩ | ⟨-, hold⟩
    · exact hissued
    · exact h.executed x (mem_of_getElem? hold) hmem hdone
  have hfirst := h.first_le
  have hnext := h.le_next
  cases hmem : ins.func_type.isMemory with
  | false =>
    rw [if_neg Bool.false_ne_true, if_neg Bool.false_ne_true]
    refine ⟨hexec, hfirst, by simpa using hnext, hentered ▸ h.places, fun i x hx hx' => ?_⟩
    rcases hcases i x hx with ⟨-, rfl⟩ | ⟨-, hold⟩
    · rw [htype, hmem] at hx'
      cases hx'
    · exact h.issued i x hold hx'
  | true =>
    rw [if_pos rfl, if_pos rfl]
    have hle : n ≤ retired.length + before.length := by
      by_contra hlt
      have hissued' := (h.issued _ ins hget hmem).2 (by omega)
      rw [hnot] at hissued'
      cases hissued'
    refine ⟨hexec, by omega, by simp, ?_, fun i x hx hx' => ?_⟩
    · have hplace := @enteredTypes_getElem? _ retired (before ++ ins :: post) before.length
      rw [hget] at hplace
      rw [hentered, memoryPlaces_succ (by rw [hplace]; exact hmem),
        ← h.pass hle fun i x hx hlt hx' => ?_]
      rw [getElem?_append_left (by omega)] at hx
      exact hbefore hmem x (mem_of_getElem? hx) hx'
    · rcases hcases i x hx with ⟨rfl, rfl⟩ | ⟨hne, hold⟩
      · exact iff_of_true hissued (by omega)
      · rcases Nat.lt_or_gt_of_ne hne with hlt | hgt
        · rw [getElem?_append_left hlt] at hold
          exact iff_of_true (hbefore hmem x (mem_of_getElem? hold) hx') (by omega)
        · rw [h.issued i x hold hx']
          omega

theorem mem_pushed_iff (h : Front retired pushed rob n) {i : Nat} {x : VanadisInstruction Op}
    (hx : rob[i]? = some x) (hmem : x.func_type.isMemory = true) :
    x.hasIssued = true ↔ retired.length + i ∈ pushed := by
  rw [h.issued i x hx hmem, h.places, memoryPlaces, mem_filter, mem_range,
    enteredTypes_getElem?, hx]
  exact (and_iff_left hmem).symm

end Front

end Threads

section Runs

namespace VanadisComponent

variable (core : VanadisComponent Op hw_threads)

/-- One call of the issue stage; a thread that found nothing is not asked again. -/
def issueCall
    (temps : Fin hw_threads → IssueTemps) (thr : Fin hw_threads) (accepts : Nat → Bool) :
    Option (VanadisComponent Op hw_threads × (Fin hw_threads → IssueTemps)) :=
  if (temps thr).blocked then
    some (core, temps)
  else
    (core.performIssue (temps thr) thr accepts).map fun next => (next.1, update temps thr next.2)

/-- The thread whose instructions an operation squashes. -/
def squashedThread : PipelineOp Op hw_threads → Option (Fin hw_threads)
  | .retire thr _ =>
    if (retiring (core.threads thr).rob).head?.any (·.mispredicted) then some thr else none
  | .halt thr | .startFork thr | .startClone thr => some thr
  | _ => none

def retiredBy (op : PipelineOp Op hw_threads) (thr : Fin hw_threads) :
    List (VanadisInstruction Op) :=
  match op with
  | .retire thr' _ => if thr' = thr then retiring (core.threads thr).rob else []
  | _ => []

end VanadisComponent

/-- A core between two calls of its issue stage, with what the calls of a cycle share,
and what has happened since the last squash of each thread: the instructions that have
retired, and the places of the memory operations that were pushed. -/
structure PushHistory (Op : Type u) (hw_threads : Nat) where
  core : VanadisComponent Op hw_threads
  temps : Fin hw_threads → IssueTemps
  retired : Fin hw_threads → List VanadisFunctionalUnitType
  pushed : Fin hw_threads → List Nat

/-- The issue stage goes call by call, the rest as before. -/
inductive PushOp (Op : Type u) (hw_threads : Nat)
  | issueCall (thr : Fin hw_threads) (accepts : Nat → Bool)
  | other (op : PipelineOp Op hw_threads)

namespace PushHistory

/-- The instruction that the thread has just issued is pushed if it is a memory
operation. -/
def push (s : PushHistory Op hw_threads) (thr : Fin hw_threads) : PushHistory Op hw_threads :=
  match (s.core.threads thr).rob[(s.temps thr).rob_start]? with
  | none => s
  | some ins =>
    { s with
      pushed := update s.pushed thr
        (if ins.func_type.isMemory then
          s.pushed thr ++ [(s.retired thr).length + (s.temps thr).rob_start]
        else
          s.pushed thr) }

/-- The history of a thread begins anew. -/
def restart (s : PushHistory Op hw_threads) (thr : Fin hw_threads) : PushHistory Op hw_threads :=
  { s with
    retired := update s.retired thr []
    pushed := update s.pushed thr [] }

/-- The core has done something else than issue. -/
def after
    (s : PushHistory Op hw_threads) (op : PipelineOp Op hw_threads)
    (core : VanadisComponent Op hw_threads) : PushHistory Op hw_threads :=
  { s with
    core := core
    temps := fun _ => .start
    retired := fun thr => s.retired thr ++ (s.core.retiredBy op thr).map (·.func_type) }

def step (s : PushHistory Op hw_threads) : PushOp Op hw_threads → Option (PushHistory Op hw_threads)
  | .issueCall thr accepts =>
    (s.core.issueCall s.temps thr accepts).map fun next =>
      let called := { s with core := next.1, temps := next.2 }
      if (next.2 thr).blocked then called else called.push thr
  | .other (.issue _) => none
  | .other op =>
    (s.core.step op).map fun core =>
      (s.core.squashedThread op).elim (s.after op core) (s.after op core).restart

def initial
    (Op : Type u) (config : VanadisComponent.Config hw_threads) : PushHistory Op hw_threads where
  core := .initial Op config
  temps := fun _ => .start
  retired := fun _ => []
  pushed := fun _ => []

/-- The instructions of a thread since its last squash, in program order. -/
def entered (s : PushHistory Op hw_threads) (thr : Fin hw_threads) :
    List VanadisFunctionalUnitType :=
  enteredTypes (s.retired thr) (s.core.threads thr).rob

/-- The pushes of a thread since its last squash are the first of its memory operations,
in program order and each once; those in the buffer are the ones that have issued.  A
call of the issue stage issues only what is clear of the older instructions. -/
structure PushesInOrder (s : PushHistory Op hw_threads) : Prop where
  isPrefix : ∀ thr, s.pushed thr <+: memoryPlaces (s.entered thr) (s.entered thr).length
  nodup : ∀ thr, (s.pushed thr).Nodup
  issued : ∀ thr i x, (s.core.threads thr).rob[i]? = some x → x.func_type.isMemory = true →
    (x.hasIssued = true ↔ (s.retired thr).length + i ∈ s.pushed thr)
  clear : ∀ thr accepts next, s.core.issueCall s.temps thr accepts = some next →
    ∀ (t : Fin hw_threads) (i j : Nat) (older ins ins' : VanadisInstruction Op), i < j →
    (s.core.threads t).rob[i]? = some older → (s.core.threads t).rob[j]? = some ins →
    (next.1.threads t).rob[j]? = some ins' → ins.hasIssued = false → ins'.hasIssued = true →
    Clear older ins

/-- What holds in every state. -/
structure Ordered (s : PushHistory Op hw_threads) : Prop where
  ready : ∀ thr, (s.temps thr).blocked = false →
    (s.temps thr).rob_start ≤ (s.core.threads thr).rob.length ∧
      (s.temps thr).Covers ((s.core.threads thr).rob.take (s.temps thr).rob_start) ∧
      (s.temps thr).InOrder (s.core.threads thr).rob (s.temps thr).rob_start
  front : ∀ thr, ∃ n, Front (s.retired thr) (s.pushed thr) (s.core.threads thr).rob n

variable {s s' : PushHistory Op hw_threads} {thr : Fin hw_threads}
variable {core' : VanadisComponent Op hw_threads}

theorem ready_start (core : VanadisComponent Op hw_threads) (thr : Fin hw_threads) :
    IssueTemps.start.rob_start ≤ (core.threads thr).rob.length ∧
      IssueTemps.start.Covers ((core.threads thr).rob.take IssueTemps.start.rob_start) ∧
      IssueTemps.start.InOrder (core.threads thr).rob IssueTemps.start.rob_start :=
  ⟨Nat.zero_le _, IssueTemps.covers_nil _, fun _ x hx => by cases hx⟩

variable {accepts : Nat → Bool}

theorem Ordered.issueCall_cases (h : s.Ordered)
    {next : VanadisComponent Op hw_threads × (Fin hw_threads → IssueTemps)}
    (hcall : s.core.issueCall s.temps thr accepts = some next) :
    (next.1 = s.core ∧ (next.2 thr).blocked = true ∧
        ∀ t, (next.2 t).blocked = false → next.2 t = s.temps t) ∨
      ∃ before post ins ins', Takes s.core next.1 thr before post ins ins' ∧
        (next.2 thr).blocked = false ∧ (next.2 thr).rob_start = before.length ∧
        (next.2 thr).Covers before ∧ (next.2 thr).InOrder (s.core.threads thr).rob before.length ∧
        ∀ t, t ≠ thr → next.2 t = s.temps t := by
  unfold VanadisComponent.issueCall at hcall
  split at hcall
  case isTrue hblocked =>
    cases hcall
    exact .inl ⟨rfl, hblocked, fun _ _ => rfl⟩
  case isFalse hblocked =>
    obtain ⟨⟨core', seen⟩, hissue, rfl⟩ := map_eq_some_iff.1 hcall
    have hready := Bool.eq_false_iff.2 hblocked
    obtain ⟨hstart, hcovers, horder⟩ := h.ready thr hready
    dsimp only
    rw [update_self]
    rcases performIssue_takes hstart hcovers horder hissue with
      ⟨rfl, hseen⟩ | ⟨before, post, ins, ins', htakes, hseen, hplace, hcov, hseenOrder⟩
    · refine .inl ⟨rfl, hseen, fun t ht => ?_⟩
      by_cases heq : t = thr
      · rw [heq, update_self, hseen] at ht
        cases ht
      · exact update_of_ne heq _ _
    · exact .inr ⟨before, post, ins, ins', htakes, hseen.trans hready, hplace, hcov,
        hseenOrder, fun t ht => update_of_ne ht _ _⟩

theorem Ordered.call (h : s.Ordered) (hstep : s.step (.issueCall thr accepts) = some s') :
    s'.Ordered := by
  obtain ⟨next, hcall, rfl⟩ := map_eq_some_iff.1 hstep
  rcases h.issueCall_cases hcall with ⟨hcore, hblocked, hsame⟩ |
    ⟨before, post, ins, ins', htakes, hblocked, hplace, hcov, horder, hother⟩
  · rw [if_pos hblocked]
    refine ⟨fun t ht => ?_, fun t => hcore ▸ h.front t⟩
    have heq := hsame t ht
    dsimp only at ht ⊢
    rw [heq] at ht ⊢
    exact hcore ▸ h.ready t ht
  · rw [hblocked, if_neg Bool.false_ne_true, push]
    have hget : (next.1.threads thr).rob[before.length]? = some ins' := by
      rw [htakes.rob', getElem?_append_right le_rfl, Nat.sub_self]
      rfl
    rw [hplace, hget]
    constructor
    · intro t ht
      by_cases heq : t = thr
      · subst heq
        rw [hplace, htakes.rob', take_left]
        refine ⟨by rw [length_append]; omega, hcov, fun hnot x hx hmem => ?_⟩
        rw [take_left] at hx
        refine horder hnot x ?_ hmem
        rwa [htakes.rob, take_left]
      · dsimp only at ht ⊢
        rw [hother t heq] at ht ⊢
        rw [htakes.other t heq]
        exact h.ready t ht
    · intro t
      dsimp only
      by_cases heq : t = thr
      · subst heq
        obtain ⟨n, hfront⟩ := h.front t
        rw [htakes.rob] at hfront
        rw [update_self, htakes.rob', htakes.func_type]
        exact ⟨_, hfront.take htakes.func_type htakes.not_issued htakes.issued htakes.in_order⟩
      · rw [update_of_ne heq, htakes.other t heq]
        exact h.front t

section Other

variable {op : PipelineOp Op hw_threads}

variable (thr) in
theorem Ordered.after (h : s.Ordered)
    (hother : ∀ t, t ≠ thr → (core'.threads t).rob = (s.core.threads t).rob ∧
      s.core.retiredBy op t = [])
    (hthr : ∃ n, Front (s.retired thr ++ (s.core.retiredBy op thr).map (·.func_type))
      (s.pushed thr) (core'.threads thr).rob n) :
    (s.after op core').Ordered where
  ready := fun t _ => ready_start core' t
  front := fun t => by
    by_cases ht : t = thr
    · exact ht ▸ hthr
    · obtain ⟨hrob, hretired⟩ := hother t ht
      dsimp only [PushHistory.after]
      rw [hrob, hretired, map_nil, append_nil]
      exact h.front t

theorem Ordered.squash (h : s.Ordered)
    (hother : ∀ t, t ≠ thr → (core'.threads t).rob = (s.core.threads t).rob ∧
      s.core.retiredBy op t = [])
    (hrob : (core'.threads thr).rob = []) :
    ((s.after op core').restart thr).Ordered where
  ready := fun t _ => ready_start core' t
  front := fun t => by
    by_cases ht : t = thr
    · subst ht
      dsimp only [PushHistory.after, restart]
      rw [update_self, update_self, hrob]
      exact ⟨0, Front.empty⟩
    · obtain ⟨hrob', hretired⟩ := hother t ht
      dsimp only [PushHistory.after, restart]
      rw [update_of_ne ht, update_of_ne ht, hrob', hretired, map_nil, append_nil]
      exact h.front t

variable (thr) in
theorem Ordered.progress (h : s.Ordered) (hretired : s.core.retiredBy op = fun _ => [])
    (hother : ∀ t, t ≠ thr → (core'.threads t).rob = (s.core.threads t).rob)
    (hrob : List.Forall₂ VanadisInstruction.Kept (s.core.threads thr).rob (core'.threads thr).rob) :
    (s.after op core').Ordered := by
  refine h.after thr (fun t ht => ⟨hother t ht, by rw [hretired]⟩) ?_
  obtain ⟨n, hfront⟩ := h.front thr
  rw [hretired, map_nil, append_nil]
  exact hfront.progress hrob

theorem kept_refl (rob : List (VanadisInstruction Op)) :
    List.Forall₂ VanadisInstruction.Kept rob rob :=
  (forall₂_progress_refl rob).imp fun _ _ hx => hx.kept

variable {core : VanadisComponent Op hw_threads} {rob : List (VanadisInstruction Op)}

theorem setRob_other (t : Fin hw_threads) (ht : t ≠ thr) :
    ((core.setRob thr rob).threads t).rob = (core.threads t).rob := by
  rw [VanadisComponent.setRob_threads, update_of_ne ht]

theorem setRob_self :
    ((core.setRob thr rob).threads thr).rob = rob := by
  rw [VanadisComponent.setRob_threads, update_self]

theorem Ordered.retire (h : s.Ordered) {ret : Bool}
    (hstep : s.step (.other (.retire thr ret)) = some s') :
    s'.Ordered := by
  cases hstep
  obtain ⟨-, hexecuted, hprefix, hrob⟩ := @VanadisComponent.performRetire_rob _ _ s.core thr ret
  have hother : ∀ t, t ≠ thr → ((s.core.performRetire thr ret).threads t).rob =
      (s.core.threads t).rob ∧ s.core.retiredBy (.retire thr ret) t = [] := fun t ht =>
    ⟨congrArg HwThread.rob (VanadisComponent.performRetire_other ht), if_neg fun heq => ht heq.symm⟩
  rw [VanadisComponent.squashedThread]
  split at hrob
  case isTrue hmiss =>
    rw [if_pos hmiss]
    exact h.squash hother hrob
  case isFalse hmiss =>
    rw [if_neg hmiss]
    refine h.after thr hother ?_
    obtain ⟨n, hfront⟩ := h.front thr
    have hretired : s.core.retiredBy (.retire thr ret) thr =
        (s.core.threads thr).rob.take (retiring (s.core.threads thr).rob).length :=
      (if_pos rfl).trans (prefix_iff_eq_take.1 hprefix)
    rw [hretired]
    refine ⟨_, hfront.advance hprefix.length_le (fun x hx => hexecuted x ?_)
      (hrob.imp fun _ _ hx => hx.kept)⟩
    rwa [← prefix_iff_eq_take.1 hprefix] at hx

theorem Ordered.other (h : s.Ordered) (hstep : s.step (.other op) = some s') : s'.Ordered := by
  have hfork : ∀ {op : PipelineOp Op hw_threads} (thr : Fin hw_threads),
      s.core.retiredBy op = (fun _ => []) →
      ((s.after op (s.core.startThreadFork thr)).restart thr).Ordered := by
    intro op thr hretired
    refine h.squash (fun t ht => ⟨?_, by rw [hretired]⟩) ?_
    · rw [VanadisComponent.startThreadFork_threads, update_of_ne ht]
    · rw [VanadisComponent.startThreadFork_threads, update_self]
  cases op with
  | issue calls => cases hstep
  | retire thr ret => exact h.retire hstep
  | decode thr bundle =>
    cases hstep
    obtain ⟨n, hfront⟩ := h.front thr
    unfold VanadisComponent.performDecode
    dsimp only
    split
    · refine h.after thr (fun t ht => ⟨setRob_other t ht, rfl⟩) ⟨n, ?_⟩
      rw [setRob_self]
      exact (append_nil _).symm ▸ hfront.append bundle
    · exact h.progress thr rfl (fun _ _ => rfl) (kept_refl _)
  | execute thr j takenAddress =>
    obtain ⟨core', hcore, rfl⟩ := map_eq_some_iff.1 hstep
    obtain ⟨ins, hins, hissued, -, rfl⟩ := VanadisComponent.performExecute_eq_some hcore
    refine h.progress thr rfl setRob_other ?_
    rw [setRob_self]
    exact forall₂_set (fun x => (VanadisInstruction.Progress.refl x).kept) hins
      ⟨rfl, rfl, fun _ _ => .inr hissued⟩
  | syscallReturn thr =>
    obtain ⟨core', hcore, rfl⟩ := map_eq_some_iff.1 hstep
    unfold VanadisComponent.step VanadisComponent.syscallReturn at hcore
    dsimp only at hcore
    split at hcore
    case h_1 => cases hcore
    case h_2 front rest hrob =>
      split at hcore
      case isFalse => cases hcore
      case isTrue hsys =>
        cases hcore
        refine h.progress thr rfl setRob_other ?_
        rw [setRob_self, hrob]
        exact (progress_front (markExecuted_progress (isMemory_of_isSyscall hsys))).imp
          fun _ _ hx => hx.kept
  | halt thr =>
    cases hstep
    refine h.squash (fun t ht => ⟨?_, rfl⟩) ?_
    · rw [VanadisComponent.setHalt, VanadisComponent.handleMisspeculate_threads, update_of_ne ht]
      exact congrArg HwThread.rob (update_of_ne ht _ _)
    · rw [VanadisComponent.setHalt, VanadisComponent.handleMisspeculate_threads, update_self]
  | start thr =>
    cases hstep
    refine h.progress thr rfl (fun t ht => ?_) ?_
    · rw [VanadisComponent.startThread_threads, update_of_ne ht]
    · rw [VanadisComponent.startThread_threads, update_self]
      exact kept_refl _
  | startFork thr =>
    cases hstep
    exact hfork thr rfl
  | startClone thr =>
    cases hstep
    exact hfork thr rfl

end Other

theorem Ordered.pushesInOrder (h : s.Ordered) : s.PushesInOrder where
  isPrefix := fun thr => by
    obtain ⟨n, hfront⟩ := h.front thr
    rw [hfront.places]
    refine memoryPlaces_prefix (hfront.le_next.trans_eq ?_)
    rw [entered, enteredTypes, length_append, length_map]
  nodup := fun thr => by
    obtain ⟨n, hfront⟩ := h.front thr
    rw [hfront.places]
    exact nodup_range.filter _
  issued := fun thr i x hx hmem => by
    obtain ⟨n, hfront⟩ := h.front thr
    exact hfront.mem_pushed_iff hx hmem
  clear := fun thr accepts next hcall t i j older ins ins' hij hi hj hj' hnot hissued => by
    rcases h.issueCall_cases hcall with ⟨hcore, -⟩ |
      ⟨before, post, x, x', htakes, -⟩
    · rw [hcore, hj, Option.some.injEq] at hj'
      rw [← hj', hnot] at hissued
      cases hissued
    · have hsame : (next.1.threads t).rob[j]? = (s.core.threads t).rob[j]? →
          Clear older ins := fun heq => by
        rw [heq, hj, Option.some.injEq] at hj'
        rw [← hj', hnot] at hissued
        cases hissued
      by_cases ht : t = thr
      · subst ht
        rw [htakes.rob, htakes.rob'] at hsame
        rw [htakes.rob] at hi hj
        rcases Nat.lt_trichotomy j before.length with hlt | rfl | hgt
        · refine hsame ?_
          rw [getElem?_append_left hlt, getElem?_append_left hlt]
        · rw [getElem?_append_left hij] at hi
          rw [getElem?_append_right le_rfl, Nat.sub_self] at hj
          cases hj
          exact htakes.clear older (mem_of_getElem? hi)
        · refine hsame ?_
          obtain ⟨k, rfl⟩ := Nat.exists_eq_add_of_lt hgt
          rw [getElem?_append_right (by omega), getElem?_append_right (by omega),
            show before.length + k + 1 - before.length = k + 1 by omega]
          rfl
      · exact hsame (by rw [htakes.other t ht])

/-- In every run, whatever registers are available and the queue accepts, the memory
operations of a thread are pushed in program order, and only what is clear of the older
instructions issues. -/
theorem memory_ops_pushed_in_order (config : VanadisComponent.Config hw_threads)
    (ops : List (PushOp Op hw_threads)) :
    Throughout step PushesInOrder (initial Op config) ops := by
  intro pre s _ hrun
  refine (runOps_invariant (P := Ordered) (fun s op t hs hstep => ?_) ?_ hrun).pushesInOrder
  · cases op with
    | issueCall thr accepts => exact hs.call hstep
    | other op => exact hs.other hstep
  · refine ⟨fun thr _ => ready_start _ thr, fun thr => ⟨0, ?_⟩⟩
    dsimp only [initial]
    rw [VanadisComponent.added_initial.rob thr]
    exact Front.empty

end PushHistory

end Runs

end SstElements.Vanadis
