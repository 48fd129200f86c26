import Mathlib.Data.List.GetD
import SstElements.Vanadis.LoadStoreQueue

/-!
# What a load leaves in its register

Memory answers a load with its bytes, in two parts when the load crosses the boundary of a
cache line.  Each part is put into the register as it arrives, and the part that arrives
last fills the rest of the register.
-/

namespace SstElements.Vanadis

open List Option Nat

open VanadisBasicLoadStoreQueue (unpackInt unpackFP readRequest removeRequest widthRight
  operationStraddlesCacheLine)

variable {hw_threads : Nat}

section Answers

variable (memory : Nat → UInt8)

def bytesFrom (address size : Nat) : List UInt8 :=
  (range size).map fun i => memory ((address + i) % 2 ^ 64)

def MemRequest.answer (req : MemRequest hw_threads) : ReadResp where
  id := req.id
  vAddr := req.vAddr
  data := bytesFrom memory req.vAddr req.size
  fail := false

end Answers

namespace LoadAccess

variable (memory : Nat → UInt8) (access : LoadAccess)

/-- A byte of the value that is loaded. -/
def byte (i : Nat) : UInt8 := memory ((access.address + i) % 2 ^ 64)

/-- What stands above a value with the given last byte. -/
def extension (top : UInt8) : UInt8 :=
  if access.register = .int ∧ access.signed_extend = true ∧ 128 ≤ top then 255 else 0

/-- The register as the load should leave it. -/
def delivered (old : List UInt8) : List UInt8 :=
  old.mapIdx fun i b =>
    if i < access.register_offset then b
    else if i < access.register_offset + access.width then
      access.byte memory (i - access.register_offset)
    else access.extension (access.byte memory (access.width - 1))

abbrev Ignored : Prop := access.register = .int ∧ access.target_reg = access.ignores_writes

/-- The register with some bytes of the load, beginning with byte `j`; those of a
floating-point load are copied from another place on. -/
def putPart (last : Bool) (j n : Nat) (old : List UInt8) : List UInt8 :=
  old.mapIdx fun i b =>
    if (if access.register = .int then 1 else 2) * (access.register_offset + j) ≤ i ∧
        i < access.register_offset + j + n then
      access.byte memory (i - access.register_offset)
    else if last = true ∧ access.register_offset + j + n ≤ i then
      access.extension (access.byte memory (j + n - 1))
    else b

/-- The response with some bytes of the load. -/
def partResp (id j n : Nat) : ReadResp where
  id := id
  vAddr := (access.address + j) % 2 ^ 64
  data := bytesFrom memory ((access.address + j) % 2 ^ 64) n
  fail := false

def registerAfter
    (ins : InsId hw_threads) (effects : List (LsqEffect hw_threads)) (old : List UInt8) :
    List UInt8 :=
  effects.foldl (fun value effect =>
    match effect with
    | .setReg hw_thr kind reg value' =>
      if hw_thr = ins.hw_thr ∧ kind = access.register ∧ reg = access.target_reg then value'
      else value
    | _ => value) old

end LoadAccess

/-- The responses to a load arrive until it is executed; any queue that holds the load with
the requests that are left may handle the next one. -/
inductive LoadRun (ins : InsId hw_threads) (access : LoadAccess) :
    List Nat → List UInt8 → List ReadResp → List UInt8 → Prop
  | executed
      {lsq lsq' : VanadisBasicLoadStoreQueue hw_threads}
      {effects : List (LsqEffect hw_threads)}
      {requests : List Nat} {old : List UInt8} {ev : ReadResp}
      (hheld : lsq.loads_pending.find? (fun e => e.requests.contains ev.id) =
        some { ins := ins, access := access, requests := requests })
      (hhandled : lsq.handleReadResp old ev = some (lsq', effects))
      (hmarked : .markExecuted ins ∈ effects) :
      LoadRun ins access requests old [ev] (access.registerAfter ins effects old)
  | waits
      {lsq lsq' : VanadisBasicLoadStoreQueue hw_threads}
      {effects : List (LsqEffect hw_threads)}
      {requests : List Nat} {old new : List UInt8} {ev : ReadResp} {evs : List ReadResp}
      (hheld : lsq.loads_pending.find? (fun e => e.requests.contains ev.id) =
        some { ins := ins, access := access, requests := requests })
      (hhandled : lsq.handleReadResp old ev = some (lsq', effects))
      (hunmarked : .markExecuted ins ∉ effects)
      (hrest : LoadRun ins access (requests.erase ev.id)
        (access.registerAfter ins effects old) evs new) :
      LoadRun ins access requests old (ev :: evs) new

namespace LoadAccess

variable {memory : Nat → UInt8} {access : LoadAccess}
variable {j n id : Nat} {old new : List UInt8} {effects : List (LsqEffect hw_threads)}
variable {ins : InsId hw_threads} {requests : List Nat}

theorem offset_part (haddr : access.address < 2 ^ 64) (hj : j < 2 ^ 64) :
    ((access.address + j) % 2 ^ 64 + 2 ^ 64 - access.address) % 2 ^ 64 = j := by
  omega

theorem getD_bytesFrom {i : Nat} (hi : i < n) :
    (bytesFrom memory ((access.address + j) % 2 ^ 64) n).getD i 0 = access.byte memory (j + i) := by
  rw [bytesFrom, getD_eq_getElem?_getD, getElem?_map, getElem?_range hi, byte]
  simp [add_assoc]

@[simp]
theorem length_bytesFrom (address size : Nat) : (bytesFrom memory address size).length = size := by
  simp [bytesFrom]

theorem unpack_part {last : Bool} (haddr : access.address < 2 ^ 64) (hj : j < 2 ^ 64) (hn : 0 < n) :
    (if access.register = .int then
        unpackInt access last (access.partResp memory id j n) old
      else unpackFP access last (access.partResp memory id j n) old) =
      access.putPart memory last j n old := by
  have hbyte : ∀ i, access.register_offset + j ≤ i → i < access.register_offset + j + n →
      (bytesFrom memory ((access.address + j) % 2 ^ 64) n).getD
        (i - (access.register_offset + j)) 0 =
        access.byte memory (i - access.register_offset) := by
    intro i hle hlt
    rw [getD_bytesFrom (by omega)]
    congr 1
    omega
  have htop : (bytesFrom memory ((access.address + j) % 2 ^ 64) n).getD (n - 1) 0 =
      access.byte memory (j + n - 1) := by
    rw [getD_bytesFrom (by omega), ← Nat.add_sub_assoc hn]
  unfold unpackInt unpackFP putPart partResp
  simp only [offset_part haddr hj, length_bytesFrom, htop]
  split
  · rename_i hint
    refine congrArg (mapIdx · old) (funext₂ fun i b => ?_)
    rw [one_mul]
    split
    · rename_i hin
      exact hbyte i hin.1 hin.2
    · simp [extension, hint]
  · rename_i hfp
    refine congrArg (mapIdx · old) (funext₂ fun i b => ?_)
    split
    · rename_i hin
      exact hbyte i (by omega) hin.2
    · simp [extension, hfp]

variable {ins : InsId hw_threads}

theorem registerAfter_effects (access : LoadAccess) {old value : List UInt8}
    {flagged ignored done : Prop}
    {_ : Decidable flagged} {_ : Decidable ignored} {_ : Decidable done}
    (heffects : effects = (if flagged then [.flagError ins] else []) ++
      (if ignored then [] else [.setReg ins.hw_thr access.register access.target_reg value]) ++
      if done then [.markExecuted ins] else []) :
    access.registerAfter ins effects old = if ignored then old else value := by
  rw [heffects, registerAfter]
  by_cases hflagged : flagged <;> by_cases hignored : ignored <;> by_cases hdone : done <;>
    simp [hflagged, hignored, hdone]

variable {lsq lsq' : VanadisBasicLoadStoreQueue hw_threads}

section

variable (haddr : access.address < 2 ^ 64)
include haddr

theorem handleReadResp_part (hj : j < 2 ^ 64)
    (hn : 0 < n)
    (hheld : lsq.loads_pending.find? (fun e => e.requests.contains id) =
      some { ins := ins, access := access, requests := requests })
    (hhandled : lsq.handleReadResp old (access.partResp memory id j n) = some (lsq', effects)) :
    access.registerAfter ins effects old = if access.Ignored then old
      else access.putPart memory (decide (requests.length = 1)) j n old := by
  unfold VanadisBasicLoadStoreQueue.handleReadResp at hhandled
  rw [show (access.partResp memory id j n).id = id from rfl, hheld] at hhandled
  dsimp only at hhandled
  split at hhandled
  · cases hhandled
  · cases hhandled
    rw [unpack_part haddr hj hn]
    refine (registerAfter_effects access rfl).trans ?_
    simp only [decide_eq_true_eq]

theorem run_single (hn : 0 < n)
    (hrun : LoadRun ins access [id] old [access.partResp memory id 0 n] new) :
    new = if access.Ignored then old else access.putPart memory true 0 n old := by
  cases hrun with
  | executed hheld hhandled _ =>
    exact handleReadResp_part haddr (by decide) hn hheld hhandled
  | waits _ _ _ hrest => cases hrest

theorem run_split {id' j' n' : Nat} (hj : j < 2 ^ 64) (hj' : j' < 2 ^ 64) (hn : 0 < n)
    (hn' : 0 < n') (hids : requests.length = 2) (hmem : id ∈ requests)
    (hrun : LoadRun ins access requests old
      [access.partResp memory id j n, access.partResp memory id' j' n'] new) :
    new = if access.Ignored then old
      else access.putPart memory true j' n' (access.putPart memory false j n old) := by
  cases hrun with
  | waits hheld hhandled _ hrest =>
    have hfirst := handleReadResp_part haddr hj hn hheld hhandled
    rw [hids] at hfirst
    cases hrest with
    | executed hheld hhandled _ =>
      have hsecond := handleReadResp_part haddr hj' hn' hheld hhandled
      have hone : (requests.erase id).length = 1 := by rw [length_erase_of_mem hmem, hids]
      rw [show (access.partResp memory id j n).id = id from rfl, hone] at hsecond
      rw [hsecond, hfirst]
      split <;> rfl
    | waits _ _ _ hrest => cases hrest

end

section Parts

variable {params : LsqParams}

theorem widthRight_bounds {address width : Nat} (hline : params.cache_line_width ∣ 2 ^ 64)
    (haddr : address < 2 ^ 64) (hpos : 0 < width) (hle : width ≤ params.cache_line_width)
    (hsplit : operationStraddlesCacheLine params address width = true) :
    0 < widthRight params address width ∧ widthRight params address width < width := by
  obtain ⟨lines, hlines⟩ := hline
  have hc : 0 < params.cache_line_width := hpos.trans_le hle
  have hmod := mod_lt address hc
  have hdiv := div_add_mod address params.cache_line_width
  have hcross : params.cache_line_width < address % params.cache_line_width + width := by
    by_contra hnot
    have hq : address / params.cache_line_width + 1 ≤ lines := by
      rw [succ_le_iff, Nat.div_lt_iff_lt_mul hc, mul_comm, ← hlines]
      exact haddr
    have hend := mul_le_mul_left params.cache_line_width hq
    rw [← hlines, mul_add, mul_one] at hend
    have hlast : accessEnd address width = address + width - 1 := by
      rw [accessEnd]
      omega
    have hsame : (address + width - 1) / params.cache_line_width =
        address / params.cache_line_width := by
      rw [show address + width - 1 = address % params.cache_line_width + width - 1 +
        params.cache_line_width * (address / params.cache_line_width) by omega,
        add_mul_div_left _ _ hc, div_eq_of_lt (by omega), zero_add]
    simp [operationStraddlesCacheLine, hlast, hsame] at hsplit
  have hright : widthRight params address width =
      address % params.cache_line_width + width - params.cache_line_width := by
    rw [widthRight, mod_mod_of_dvd _ ⟨lines, hlines⟩,
      ← mod_add_mod, mod_eq_sub_mod hcross.le, mod_eq_of_lt (by omega)]
  omega

/-- The width of the part in front of the boundary. -/
def widthLeft (params : LsqParams) (access : LoadAccess) : Nat :=
  access.width - widthRight params access.address access.width

/-- The load crosses the boundary of a cache line. -/
abbrev Splits (params : LsqParams) (access : LoadAccess) : Prop :=
  operationStraddlesCacheLine params access.address access.width = true

theorem answers_issueLoad {reqs : List (MemRequest hw_threads)} (haddr : access.address < 2 ^ 64)
    (hissue : lsq.issueLoad params ins access = some (lsq', reqs.map LsqEffect.send)) :
    reqs.map (MemRequest.answer memory) = if access.Splits params then
        [access.partResp memory lsq.next_id 0 (access.widthLeft params),
          access.partResp memory (lsq.next_id + 1) (access.widthLeft params)
            (widthRight params access.address access.width)]
      else [access.partResp memory lsq.next_id 0 access.width] := by
  have hsame : (access.address + 0) % 2 ^ 64 = access.address := mod_eq_of_lt haddr
  have hflag : ∀ {b : VanadisBasicLoadStoreQueue hw_threads},
      some (b, [LsqEffect.flagError ins]) ≠ some (lsq', reqs.map LsqEffect.send) := by
    intro b heq
    have hmem : LsqEffect.flagError ins ∈ reqs.map LsqEffect.send := by
      rw [← (Prod.mk.inj (some.inj heq)).2]
      exact mem_singleton_self _
    simp at hmem
  have hreqs : ∀ {b : VanadisBasicLoadStoreQueue hw_threads} {l : List (MemRequest hw_threads)},
      some (b, l.map LsqEffect.send) = some (lsq', reqs.map LsqEffect.send) → reqs = l :=
    fun heq => (map_injective_iff.2 (fun _ _ => LsqEffect.send.inj)
      (Prod.mk.inj (some.inj heq)).2).symm
  have hone : ∀ (kind : RequestKind) {b : VanadisBasicLoadStoreQueue hw_threads},
      some (b, [readRequest params kind ins lsq.next_id
        access.address access.width].map LsqEffect.send) =
        some (lsq', reqs.map LsqEffect.send) →
      reqs.map (MemRequest.answer memory) =
        [access.partResp memory lsq.next_id 0 access.width] := by
    intro kind b heq
    rw [hreqs heq, partResp, hsame]
    rfl
  unfold VanadisBasicLoadStoreQueue.issueLoad at hissue
  by_cases hsplit : access.Splits params
  · rw [if_pos hsplit]
    simp only [hsplit, if_true] at hissue
    split at hissue
    · rw [hreqs hissue, partResp, partResp, hsame]
      rfl
    · exact absurd hissue hflag
    · cases hissue
    · exact absurd hissue hflag
  · rw [if_neg hsplit]
    simp only [hsplit, if_false] at hissue
    split at hissue
    · split at hissue
      · exact absurd hissue hflag
      · exact hone _ hissue
    · exact hone _ hissue
    · cases hissue
    · exact hone _ hissue

end Parts

section Delivery

/-- The responses arrive in the order of the reads. -/
abbrev InOrder (evs : List ReadResp) : Prop := (evs.map ReadResp.id).Pairwise (· < ·)

/-- The bytes that are not copied from a response to a floating-point load are in the
register before. -/
def SkipsHeld (memory : Nat → UInt8) (access : LoadAccess) (old : List UInt8) (j n : Nat) : Prop :=
  access.register ≠ .int → ∀ i, j ≤ i → i < j + n → i < access.register_offset + 2 * j →
    old.getD (access.register_offset + i) 0 = access.byte memory i

/-- The condition for a load to deliver its bytes. -/
def Meets
    (params : LsqParams) (memory : Nat → UInt8) (access : LoadAccess) (old : List UInt8)
    (evs : List ReadResp) : Prop :=
  if access.Ignored then access.delivered memory old = old
  else if access.Splits params then
    access.SkipsHeld memory old 0 (access.widthLeft params) ∧
      if InOrder evs then
        access.SkipsHeld memory old (access.widthLeft params)
          (widthRight params access.address access.width)
      else
        ∀ i, access.widthLeft params ≤ i → i < access.width →
          access.byte memory i = access.extension (access.byte memory (access.widthLeft params - 1))
  else access.SkipsHeld memory old 0 access.width

variable {i j n : Nat} {last : Bool} {old : List UInt8}

theorem getD_mapIdx {f : Nat → UInt8 → UInt8} {l : List UInt8} (hi : i < l.length) :
    (l.mapIdx f).getD i 0 = f i (l.getD i 0) := by
  simp [getD_eq_getElem?_getD, hi]

@[simp]
theorem length_putPart (last : Bool) (j n : Nat) (old : List UInt8) :
    (access.putPart memory last j n old).length = old.length := by
  simp [putPart]

theorem getD_putPart (hi : i < old.length) :
    (access.putPart memory last j n old).getD i 0 =
      if i < access.register_offset + j then old.getD i 0
      else if i < access.register_offset + j + n then
        if access.register ≠ .int ∧ i < 2 * (access.register_offset + j) then old.getD i 0
        else access.byte memory (i - access.register_offset)
      else if last = true then access.extension (access.byte memory (j + n - 1))
      else old.getD i 0 := by
  rw [putPart, getD_mapIdx hi]
  by_cases hint : access.register = .int <;> cases last <;>
    simp only [hint, ne_eq, not_true_eq_false, not_false_eq_true, false_and, true_and, if_false,
      if_true, Bool.false_eq_true, one_mul] <;>
    split_ifs <;> first | rfl | omega

theorem eq_delivered_iff {new : List UInt8}
    (hfit : access.register_offset + access.width ≤ old.length) (hlen : new.length = old.length)
    (hlow : ∀ i, i < access.register_offset → new.getD i 0 = old.getD i 0) :
    new = access.delivered memory old ↔
      (∀ i, i < access.width → new.getD (access.register_offset + i) 0 = access.byte memory i) ∧
      ∀ i, access.register_offset + access.width ≤ i → i < old.length →
        new.getD i 0 = access.extension (access.byte memory (access.width - 1)) := by
  constructor
  · rintro rfl
    refine ⟨fun i hi => ?_, fun i hle hi => ?_⟩
    · rw [delivered, getD_mapIdx (by omega), if_neg (by omega), if_pos (by omega),
        Nat.add_sub_cancel_left]
    · rw [delivered, getD_mapIdx hi, if_neg (by omega), if_neg (by omega)]
  · rintro ⟨hvalue, habove⟩
    refine ext_getElem (by simp [delivered, hlen]) fun i hi hi' => ?_
    rw [← getD_eq_getElem new 0 hi, ← getD_eq_getElem _ 0 hi', delivered, getD_mapIdx (hlen ▸ hi)]
    split_ifs with hbelow hin
    · exact hlow i hbelow
    · rw [← hvalue _ (show i - access.register_offset < access.width by omega),
        add_sub_of_le (by omega)]
    · exact habove i (by omega) (hlen ▸ hi)

theorem getD_putPart_byte (hfit : access.register_offset + i < old.length) (hj : j ≤ i)
    (hi : i < j + n) :
    (access.putPart memory last j n old).getD (access.register_offset + i) 0 =
      if access.register ≠ .int ∧ i < access.register_offset + 2 * j then
        old.getD (access.register_offset + i) 0
      else access.byte memory i := by
  rw [getD_putPart hfit, if_neg (by omega), if_pos (by omega), Nat.add_sub_cancel_left]
  congr 2
  exact propext (by omega)

theorem skipsHeld_iff (last : Bool) {j n : Nat} {old : List UInt8}
    (hfit : access.register_offset + j + n ≤ old.length) :
    (∀ i, j ≤ i → i < j + n → (access.putPart memory last j n old).getD
        (access.register_offset + i) 0 = access.byte memory i) ↔
      access.SkipsHeld memory old j n := by
  constructor
  · intro h hfp i hj hi hskip
    have hbyte := h i hj hi
    rwa [getD_putPart_byte (by omega) hj hi, if_pos ⟨hfp, hskip⟩] at hbyte
  · intro h i hj hi
    rw [getD_putPart_byte (by omega) hj hi]
    split_ifs with hskip
    · exact h hskip.1 i hj hi hskip.2
    · rfl

theorem SkipsHeld.congr {old old' : List UInt8} {j n : Nat}
    (h : ∀ i, j ≤ i → i < j + n →
      old'.getD (access.register_offset + i) 0 = old.getD (access.register_offset + i) 0) :
    access.SkipsHeld memory old' j n ↔ access.SkipsHeld memory old j n := by
  unfold SkipsHeld
  refine forall_congr' fun _ => forall_congr' fun i => forall_congr' fun hj =>
    forall_congr' fun hi => ?_
  rw [h i hj hi]

theorem getD_putPart_below (hi : i < old.length) (hbelow : i < access.register_offset + j) :
    (access.putPart memory last j n old).getD i 0 = old.getD i 0 := by
  rw [getD_putPart hi, if_pos hbelow]

theorem getD_putPart_above (hi : i < old.length) (habove : access.register_offset + j + n ≤ i) :
    (access.putPart memory last j n old).getD i 0 =
      if last = true then access.extension (access.byte memory (j + n - 1))
      else old.getD i 0 := by
  rw [getD_putPart hi, if_neg (by omega), if_neg (by omega)]

theorem extension_extension (top : UInt8) :
    access.extension (access.extension top) = access.extension top := by
  by_cases h : access.register = .int ∧ access.signed_extend = true ∧ 128 ≤ top
  · rw [extension, extension, if_pos h, if_pos ⟨h.1, h.2.1, by decide⟩]
  · rw [extension, extension, if_neg h, if_neg fun h' => absurd h'.2.2 (by decide)]

section Whole

variable {old : List UInt8} {left right : Nat}

section

variable (hfit : access.register_offset + access.width ≤ old.length)
include hfit

theorem single_iff :
    access.putPart memory true 0 access.width old = access.delivered memory old ↔
      access.SkipsHeld memory old 0 access.width := by
  rw [eq_delivered_iff hfit (length_putPart ..) fun i hi =>
    getD_putPart_below (by omega) hi, ← skipsHeld_iff true (by omega)]
  constructor
  · exact fun h i _ hi => h.1 i (by omega)
  · refine fun h => ⟨fun i hi => h i (zero_le i) (by omega), fun i hle hi => ?_⟩
    rw [getD_putPart_above hi hle, if_pos rfl, zero_add]

theorem ordered_iff (hsum : left + right = access.width) :
    access.putPart memory true left right (access.putPart memory false 0 left old) =
        access.delivered memory old ↔
      access.SkipsHeld memory old 0 left ∧ access.SkipsHeld memory old left right := by
  have hfirst : ∀ i, left ≤ i → i < left + right →
      (access.putPart memory false 0 left old).getD (access.register_offset + i) 0 =
        old.getD (access.register_offset + i) 0 := fun i hle hi => by
    rw [getD_putPart_above (by omega) (by omega), if_neg Bool.false_ne_true]
  rw [eq_delivered_iff hfit (by simp) fun i hi => by
      rw [getD_putPart_below (by rw [length_putPart]; omega) (by omega),
        getD_putPart_below (by omega) hi],
    ← SkipsHeld.congr hfirst, ← skipsHeld_iff false (by omega),
    ← skipsHeld_iff true (by rw [length_putPart]; omega)]
  constructor
  · refine fun h => ⟨fun i _ hi => ?_, fun i _ hi => h.1 i (by omega)⟩
    have hbyte := h.1 i (by omega)
    rwa [getD_putPart_below (by rw [length_putPart]; omega) (by omega)] at hbyte
  · refine fun h => ⟨fun i hi => ?_, fun i hle hi => ?_⟩
    · by_cases hleft : i < left
      · rw [getD_putPart_below (by rw [length_putPart]; omega) (by omega)]
        exact h.1 i (zero_le i) (by omega)
      · exact h.2 i (by omega) (by omega)
    · rw [getD_putPart_above (by rwa [length_putPart]) (by omega), if_pos rfl, hsum]

theorem reversed_iff (hsum : left + right = access.width) (hright : 0 < right) :
    access.putPart memory true 0 left (access.putPart memory false left right old) =
        access.delivered memory old ↔
      access.SkipsHeld memory old 0 left ∧ ∀ i, left ≤ i → i < access.width →
        access.byte memory i = access.extension (access.byte memory (left - 1)) := by
  have hfirst : ∀ i, 0 ≤ i → i < 0 + left →
      (access.putPart memory false left right old).getD (access.register_offset + i) 0 =
        old.getD (access.register_offset + i) 0 := fun i _ hi =>
    getD_putPart_below (by omega) (by omega)
  have hfill : ∀ i, access.register_offset + left ≤ i → i < old.length →
      (access.putPart memory true 0 left (access.putPart memory false left right old)).getD i 0 =
        access.extension (access.byte memory (left - 1)) := fun i hle hi => by
    rw [getD_putPart_above (by rwa [length_putPart]) (by omega), if_pos rfl, zero_add]
  rw [eq_delivered_iff hfit (by simp) fun i hi => by
      rw [getD_putPart_below (by rw [length_putPart]; omega) (by omega),
        getD_putPart_below (by omega) (by omega)],
    ← SkipsHeld.congr hfirst, ← skipsHeld_iff true (by rw [length_putPart]; omega)]
  constructor
  · refine fun h => ⟨fun i _ hi => h.1 i (by omega), fun i hle hi => ?_⟩
    rw [← h.1 i hi, hfill _ (by omega) (by omega)]
  · refine fun h => ⟨fun i hi => ?_, fun i hle hi => ?_⟩
    · by_cases hleft : i < left
      · exact h.1 i (zero_le i) (by omega)
      · rw [hfill _ (by omega) (by omega), h.2 i (by omega) hi]
    · rw [hfill i (by omega) hi, h.2 (access.width - 1) (by omega) (by omega), extension_extension]

end

end Whole

theorem perm_pair {evs : List ReadResp} {a b : ReadResp} (h : evs.Perm [a, b]) :
    evs = [a, b] ∨ evs = [b, a] := by
  obtain ⟨x, y, rfl⟩ := length_eq_two.1 h.length_eq
  have hx : x = a ∨ x = b := by simpa using h.mem_iff.1 mem_cons_self
  rcases hx with rfl | rfl
  · exact .inl (by rw [perm_singleton.1 ((perm_cons _).1 h)])
  · right
    have hswap := (perm_cons x).1 (h.trans (List.Perm.swap x a []))
    rw [perm_singleton.1 hswap]

/-- A load delivers the bytes of memory under the condition, and only then. -/
theorem delivers_iff {params : LsqParams} {lsq lsq' : VanadisBasicLoadStoreQueue hw_threads}
    {ins : InsId hw_threads} {reqs : List (MemRequest hw_threads)} {evs : List ReadResp}
    {old new : List UInt8}
    (hline : params.cache_line_width ∣ 2 ^ 64)
    (haddr : access.address < 2 ^ 64)
    (hpos : 0 < access.width)
    (hle : access.width ≤ params.cache_line_width)
    (hfit : access.register_offset + access.width ≤ old.length)
    (hissue : lsq.issueLoad params ins access = some (lsq', reqs.map LsqEffect.send))
    (harrive : evs.Perm (reqs.map (MemRequest.answer memory)))
    (hrun : LoadRun ins access (reqs.map MemRequest.id) old evs new) :
    new = access.delivered memory old ↔ access.Meets params memory old evs := by
  have hids : reqs.map MemRequest.id =
      (reqs.map (MemRequest.answer memory)).map ReadResp.id := by
    rw [List.map_map]
    rfl
  rw [answers_issueLoad haddr hissue] at harrive hids
  rw [hids] at hrun
  unfold Meets
  by_cases hsplit : access.Splits params
  · obtain ⟨hright, hlt⟩ := widthRight_bounds hline haddr hpos hle hsplit
    have hwidth := le_of_dvd (by decide) hline
    have hsum : access.widthLeft params + widthRight params
        access.address access.width = access.width := Nat.sub_add_cancel hlt.le
    rw [if_pos hsplit] at harrive hrun
    rw [if_pos hsplit]
    rcases perm_pair harrive with rfl | rfl
    · rw [run_split haddr (by decide) (by omega) (by omega) hright rfl (by simp [partResp]) hrun]
      split_ifs with hignored horder
      · exact eq_comm
      · exact ordered_iff hfit hsum
      · exact absurd (by simp [InOrder, partResp]) horder
    · rw [run_split haddr (by omega) (by decide) hright (by omega) rfl (by simp [partResp]) hrun]
      split_ifs with hignored horder
      · exact eq_comm
      · simp [InOrder, partResp] at horder
      · exact reversed_iff hfit hsum hright
  · rw [if_neg hsplit] at harrive hrun
    rw [if_neg hsplit]
    obtain rfl := perm_singleton.1 harrive
    rw [run_single haddr hpos hrun]
    split_ifs
    · exact eq_comm
    · exact single_iff hfit

end Delivery

section Crossing

def line64 : LsqParams where
  max_stores := 8
  max_loads := 8
  max_issue_attempts_per_cycle := 2
  cache_line_width := 64
  address_mask := 2 ^ 64 - 1

/-- Eight bytes, of which four are in the next line. -/
def crossing : LoadAccess where
  transaction := .MEM_TRANSACTION_NONE
  address := 124
  width := 8
  register_offset := 0
  signed_extend := false
  register := .fp
  target_reg := 5
  ignores_writes := 0

def crossingIns : InsId 1 where
  hw_thr := 0
  seq := 0

def crossingReads : List (MemRequest 1) :=
  [readRequest line64 .Read crossingIns 0 124 4, readRequest line64 .Read crossingIns 1 128 4]

def crossingQueue (requests : List Nat) : VanadisBasicLoadStoreQueue 1 :=
  { VanadisBasicLoadStoreQueue.empty 1 with
    loads_pending := [{ ins := crossingIns, access := crossing, requests := requests }]
    next_id := 2 }

theorem crossing_issued :
    (VanadisBasicLoadStoreQueue.empty 1).issueLoad line64 crossingIns crossing =
      some (crossingQueue [0, 1], crossingReads.map LsqEffect.send) :=
  rfl

set_option maxRecDepth 4000 in
theorem crossing_run :
    LoadRun crossingIns crossing (crossingReads.map MemRequest.id) (replicate 8 0)
      (crossingReads.map (MemRequest.answer fun _ => 1)) [1, 1, 1, 1, 0, 0, 0, 0] := by
  have hfirst : (crossingQueue [0, 1]).handleReadResp (replicate 8 0)
      (crossing.partResp (fun _ => 1) 0 0 4) =
        some (crossingQueue [1], [.setReg 0 .fp 5 [1, 1, 1, 1, 0, 0, 0, 0]]) := by
    simp [VanadisBasicLoadStoreQueue.handleReadResp, crossingQueue, crossing, crossingIns,
      partResp, bytesFrom, unpackFP, removeRequest]
  have hsecond : (crossingQueue [1]).handleReadResp [1, 1, 1, 1, 0, 0, 0, 0]
      (crossing.partResp (fun _ => 1) 1 4 4) =
        some ({ VanadisBasicLoadStoreQueue.empty 1 with next_id := 2 },
          [.setReg 0 .fp 5 [1, 1, 1, 1, 0, 0, 0, 0], .markExecuted crossingIns]) := by
    simp [VanadisBasicLoadStoreQueue.handleReadResp, crossingQueue, crossing, crossingIns,
      partResp, bytesFrom, unpackFP, removeRequest, VanadisBasicLoadStoreQueue.empty]
  exact .waits rfl hfirst (by simp) (.executed rfl hsecond (by simp))

/-- The case of a load that crosses a line, with the responses in order. -/
theorem delivers_iff_crossing :
    [1, 1, 1, 1, 0, 0, 0, 0] = crossing.delivered (fun _ => 1) (replicate 8 0) ↔
      crossing.Meets line64 (fun _ => 1) (replicate 8 0)
        (crossingReads.map (MemRequest.answer fun _ => 1)) :=
  delivers_iff (by decide) (by decide) (by decide) (by decide) (by decide) crossing_issued
    (List.Perm.refl _) crossing_run

/-- Of eight bytes for a floating-point register only those in the first line come in. -/
theorem not_delivers_crossing :
    ∃ new, LoadRun crossingIns crossing (crossingReads.map MemRequest.id) (replicate 8 0)
        (crossingReads.map (MemRequest.answer fun _ => 1)) new ∧
      new ≠ crossing.delivered (fun _ => 1) (replicate 8 0) :=
  ⟨_, crossing_run, by decide⟩

end Crossing

end LoadAccess

end SstElements.Vanadis
