import SstElements.Vanadis.IntegerOps

/-!
# The micro-operations with two results

The multiplications and divisions of the MIPS decoder leave their results in
the registers LO and HI.  `VanadisMultiplySplitInstruction` multiplies in the
format of the operands and widens the product afterwards.
-/

namespace SstElements.Vanadis

open Library.MachineArithmetic Option Nat

section Instructions

/-- The physical registers of an instruction with two results. -/
structure SplitRegs (count : Nat) where
  in_0 : Fin count
  in_1 : Fin count
  out_0 : Fin count
  out_1 : Fin count

variable {count w : Nat} (P : Platform) (regFile : RegisterFile count)
variable (phys : SplitRegs count)

/-- Two values are written, unless there was a trap. -/
def writeOuts (val_0 val_1 : Option (BitVec w)) (sign_extend : Bool) :
    Except Fault (Executed count) :=
  match val_0, val_1 with
  | some v_0, some v_1 =>
    .ok ⟨(regFile.setIntReg phys.out_0 v_0 sign_extend).setIntReg phys.out_1 v_1
      sign_extend, false⟩
  | _, _ => .error .trap

def lo_mask (register_format : GprFormat) : BitVec 64 :=
  if register_format.bits = 32 then 0xFFFFFFFF else 0xFF

def VanadisMultiplySplitInstruction.execute (register_format : GprFormat) :
    Except Fault (Executed count) :=
  let src_1 := regFile.getIntReg phys.in_0 register_format.bits
  let src_2 := regFile.getIntReg phys.in_1 register_format.bits
  let shift := BitVec.ofNat 64 register_format.bits
  if register_format.isSigned then
    let multiply_result := (signedMul P src_1 src_2).map (fun p => p.signExtend 64)
    let result_lo := multiply_result.map
      (fun m => (m &&& lo_mask register_format).setWidth register_format.bits)
    let result_hi := (multiply_result.bind (fun m => arithmeticShiftRight P m shift)).map
      (fun m => m.setWidth register_format.bits)
    writeOuts regFile phys result_lo result_hi true
  else
    let multiply_result := (src_1 * src_2).setWidth 64
    let result_lo := (multiply_result &&& lo_mask register_format).setWidth
      register_format.bits
    let result_hi := (shiftRight P multiply_result shift).map
      (fun m => m.setWidth register_format.bits)
    writeOuts regFile phys (some result_lo) result_hi true

def VanadisDivideRemainderInstruction.execute (gpr_format : GprFormat) :
    Except Fault (Executed count) :=
  let src_1 := regFile.getIntReg phys.in_0 gpr_format.bits
  let src_2 := regFile.getIntReg phys.in_1 gpr_format.bits
  if 0 = src_2 then
    flagError regFile
  else if gpr_format.isSigned then
    writeOuts regFile phys (signedDiv P src_1 src_2) (signedRem P src_1 src_2) true
  else
    writeOuts regFile phys (unsignedDiv P src_1 src_2) (unsignedRem P src_1 src_2) false

/-- The instructions of the MIPS decoder with two results. -/
inductive SplitOp where
  | MULT
  | MULTU
  | DIV
  | DIVU
  deriving DecidableEq, Repr

def SplitOp.execute : SplitOp → Except Fault (Executed count)
  | .MULT => VanadisMultiplySplitInstruction.execute P regFile phys .int32
  | .MULTU => VanadisMultiplySplitInstruction.execute P regFile phys .uint32
  | .DIV => VanadisDivideRemainderInstruction.execute P regFile phys .int32
  | .DIVU => VanadisDivideRemainderInstruction.execute P regFile phys .uint32

end Instructions

section Isa

/-- The high half of a product. -/
def high (x : BitVec 64) : BitVec 32 := (x >>> 32).setWidth 32

/-- LO and HI have the halves of a product, each sign-extended. -/
structure HasProduct (lo hi product : BitVec 64) : Prop where
  lo_eq : lo = sext (low product)
  hi_eq : hi = sext (high product)
  joined : (low hi).setWidth 64 <<< 32 + (low lo).setWidth 64 = product

/-- A quotient and remainder of signed numbers; exact except for the minimum
divided by minus one. -/
structure HasQuotient (x y q r : BitVec 32) : Prop where
  joined : q * y + r = x
  exact : x.sdivOverflow y = false → q.toInt * y.toInt + r.toInt = x.toInt
  lt : |r.toInt| < |y.toInt|
  sign : 0 ≤ r.toInt * x.toInt

/-- A quotient and remainder of unsigned numbers. -/
structure HasQuotientU (x y q r : BitVec 32) : Prop where
  exact : q.toNat * y.toNat + r.toNat = x.toNat
  lt : r.toNat < y.toNat

/-- What LO and HI have to be for the operands of an instruction. -/
def SplitOp.Results (x y : BitVec 32) (lo hi : BitVec 64) : SplitOp → Prop
  | .MULT => HasProduct lo hi (BitVec.ofInt 64 (x.toInt * y.toInt))
  | .MULTU => HasProduct lo hi (BitVec.ofNat 64 (x.toNat * y.toNat))
  | .DIV => HasQuotient x y (low lo) (low hi)
  | .DIVU => HasQuotientU x y (low lo) (low hi)

/-- The instruction ends without an error and leaves its results. -/
def SplitOp.Computes {count : Nat} (P : Platform) (regFile : RegisterFile count)
    (phys : SplitRegs count) (op : SplitOp) : Prop :=
  ∃ file, op.execute P regFile phys = .ok ⟨file, false⟩ ∧
    op.Results (regFile.getIntReg phys.in_0 32) (regFile.getIntReg phys.in_1 32)
      (file.getIntReg phys.out_0 64) (file.getIntReg phys.out_1 64)

/--
The operands for which an instruction leaves its results: a product has to fit
in 32 bits, and the quotient without a value has to be what the platform gives.
-/
def SplitOp.Fits (P : Platform) (x y : BitVec 32) : SplitOp → Prop
  | .MULT => -2 ^ 31 ≤ x.toInt * y.toInt ∧ x.toInt * y.toInt < 2 ^ 31
  | .MULTU => x.toNat * y.toNat < 2 ^ 32
  | .DIV => x.sdivOverflow y →
      P.undefined .quotient 32 x y = some x ∧ P.undefined .remainder 32 x y = some 0
  | .DIVU => True

end Isa

section Writes

variable {count w : Nat} {regFile : RegisterFile count} {phys : SplitRegs count}

/-- The output registers of an instruction take writes and are distinct. -/
structure SplitRegs.Writable (phys : SplitRegs count) (regFile : RegisterFile count) : Prop where
  out_0 : phys.out_0.val ≠ regFile.register_ignore_writes
  out_1 : phys.out_1.val ≠ regFile.register_ignore_writes
  ne : phys.out_0 ≠ phys.out_1

/-- What is read from the output registers after both were written. -/
theorem writeOuts_iff {val_0 val_1 : Option (BitVec w)} {sign_extend : Bool}
    {Q : BitVec 64 → BitVec 64 → Prop} (hphys : phys.Writable regFile) :
    (∃ file, writeOuts regFile phys val_0 val_1 sign_extend = .ok ⟨file, false⟩ ∧
        Q (file.getIntReg phys.out_0 64) (file.getIntReg phys.out_1 64)) ↔
      ∃ v_0 v_1, val_0 = some v_0 ∧ val_1 = some v_1 ∧
        Q (if sign_extend then v_0.signExtend 64 else v_0.setWidth 64)
          (if sign_extend then v_1.signExtend 64 else v_1.setWidth 64) := by
  have hread : ∀ v_0 v_1 : BitVec w,
      (((regFile.setIntReg phys.out_0 v_0 sign_extend).setIntReg phys.out_1 v_1
          sign_extend).getIntReg phys.out_0 64 =
        if sign_extend then v_0.signExtend 64 else v_0.setWidth 64) ∧
      (((regFile.setIntReg phys.out_0 v_0 sign_extend).setIntReg phys.out_1 v_1
          sign_extend).getIntReg phys.out_1 64 =
        if sign_extend then v_1.signExtend 64 else v_1.setWidth 64) := by
    intro v_0 v_1
    have hignore : phys.out_1.val ≠
        (regFile.setIntReg phys.out_0 v_0 sign_extend).register_ignore_writes := by
      unfold RegisterFile.setIntReg
      split <;> exact hphys.out_1
    refine ⟨?_, RegisterFile.getIntReg_setIntReg_self hignore⟩
    rw [RegisterFile.getIntReg_setIntReg_of_ne hphys.ne]
    exact RegisterFile.getIntReg_setIntReg_self hphys.out_0
  constructor
  · rintro ⟨file, hfile, hQ⟩
    cases val_0 with
    | none => cases hfile
    | some v_0 =>
      cases val_1 with
      | none => cases hfile
      | some v_1 =>
        obtain rfl := congrArg Executed.regFile (Except.ok.inj hfile)
        rw [(hread v_0 v_1).1, (hread v_0 v_1).2] at hQ
        exact ⟨v_0, v_1, rfl, rfl, hQ⟩
  · rintro ⟨v_0, v_1, rfl, rfl, hQ⟩
    refine ⟨_, rfl, ?_⟩
    rw [(hread v_0 v_1).1, (hread v_0 v_1).2]
    exact hQ

end Writes

section Halves

variable {x : BitVec 32} {m : BitVec 64}

theorem low_sext (x : BitVec 32) : low (sext x) = x :=
  setWidth_signExtend (by decide) x

theorem join_halves (m : BitVec 64) : (high m).setWidth 64 <<< 32 + (low m).setWidth 64 = m := by
  apply BitVec.eq_of_toNat_eq
  simp only [high, low, BitVec.toNat_add, BitVec.toNat_shiftLeft, BitVec.toNat_setWidth,
    BitVec.toNat_ushiftRight, shiftRight_eq_div_pow, Nat.shiftLeft_eq]
  omega

theorem hasProduct_sext_iff {lo hi : BitVec 32} :
    HasProduct (sext lo) (sext hi) m ↔ lo = low m ∧ hi = high m := by
  constructor
  · intro h
    exact ⟨signExtend_inj (by decide) h.lo_eq, signExtend_inj (by decide) h.hi_eq⟩
  · rintro ⟨rfl, rfl⟩
    refine ⟨rfl, rfl, ?_⟩
    rw [low_sext, low_sext]
    exact join_halves m

theorem mask_low (m : BitVec 64) : (m &&& 0xFFFFFFFF).setWidth 32 = low m := by
  apply BitVec.eq_of_toNat_eq
  rw [low, BitVec.toNat_setWidth, BitVec.toNat_setWidth, BitVec.toNat_and]
  have hmask : (0xFFFFFFFF : BitVec 64).toNat = 2 ^ 32 - 1 := rfl
  rw [hmask, and_two_pow_sub_one_eq_mod, mod_mod]

theorem sshiftRight_high (m : BitVec 64) : (m.sshiftRight 32).setWidth 32 = high m := by
  ext i hi
  have hlt : 32 + i < 64 := by omega
  simp [high, hlt, BitVec.getLsbD_sshiftRight]
  omega

theorem eq_of_halves {m n : BitVec 64} (hlow : low m = low n) (hhigh : high m = high n) :
    m = n := by
  rw [← join_halves m, ← join_halves n, hlow, hhigh]

end Halves

section Main

variable {P : Platform} {count : Nat} {regFile : RegisterFile count}
variable {phys : SplitRegs count} {x y : BitVec 32}

theorem signedMul_widened_iff :
    (∃ p, signedMul P x y = some p ∧ p.signExtend 64 = BitVec.ofInt 64 (x.toInt * y.toInt)) ↔
      -2 ^ 31 ≤ x.toInt * y.toInt ∧ x.toInt * y.toInt < 2 ^ 31 := by
  have hle := @BitVec.toInt_mul_toInt_le 32 x y
  have hge := @BitVec.le_toInt_mul_toInt 32 x y
  have hexact : (BitVec.ofInt 64 (x.toInt * y.toInt)).toInt = x.toInt * y.toInt := by
    rw [BitVec.toInt_ofInt]
    exact Int.bmod_eq_of_le (by omega) (by omega)
  constructor
  · rintro ⟨p, -, hp⟩
    rw [← hexact, ← hp, BitVec.toInt_signExtend_of_le (by decide)]
    exact ⟨p.le_toInt, p.toInt_lt⟩
  · rintro ⟨hle, hlt⟩
    have hfits : ¬ x.smulOverflow y = true := by
      simp only [BitVec.smulOverflow, Bool.or_eq_true, decide_eq_true_eq]
      omega
    refine ⟨x * y, if_neg hfits, BitVec.eq_of_toInt_eq ?_⟩
    rw [hexact, BitVec.toInt_signExtend_of_le (by decide),
      BitVec.toInt_mul_of_not_smulOverflow hfits]

theorem hasProduct_halves_iff {m product : BitVec 64} :
    HasProduct (sext (low m)) (sext (high m)) product ↔ m = product := by
  rw [hasProduct_sext_iff]
  exact ⟨fun h => eq_of_halves h.1 h.2, fun h => h ▸ ⟨rfl, rfl⟩⟩

theorem multiplySplit_int32 :
    VanadisMultiplySplitInstruction.execute P regFile phys .int32 = writeOuts regFile phys
        ((signedMul P (regFile.getIntReg phys.in_0 32) (regFile.getIntReg phys.in_1 32)).map
          (fun p => low (p.signExtend 64)))
        ((signedMul P (regFile.getIntReg phys.in_0 32) (regFile.getIntReg phys.in_1 32)).map
          (fun p => high (p.signExtend 64))) true := by
  have hshift : ∀ m : BitVec 64, arithmeticShiftRight P m (BitVec.ofNat 64 32) =
      some (m.sshiftRight 32) := fun m => arithmeticShiftRight_of_lt (by decide)
  simp only [VanadisMultiplySplitInstruction.execute, GprFormat.isSigned, GprFormat.bits,
    if_true, lo_mask]
  cases signedMul P (regFile.getIntReg phys.in_0 32) (regFile.getIntReg phys.in_1 32) with
  | none => rfl
  | some p =>
    simp only [map_some, bind_some, hshift, mask_low, sshiftRight_high]

/-- So does the unsigned one. -/
theorem multiplySplit_uint32 :
    VanadisMultiplySplitInstruction.execute P regFile phys .uint32 = writeOuts regFile phys
        (some (low ((regFile.getIntReg phys.in_0 32 * regFile.getIntReg phys.in_1 32).setWidth 64)))
        (some (high ((regFile.getIntReg phys.in_0 32 *
          regFile.getIntReg phys.in_1 32).setWidth 64))) true := by
  have hshift : ∀ m : BitVec 64, shiftRight P m (BitVec.ofNat 64 32) = some (m >>> 32) :=
    fun m => shiftRight_of_lt (by decide)
  simp only [VanadisMultiplySplitInstruction.execute, GprFormat.isSigned, GprFormat.bits,
    Bool.false_eq_true, if_false, if_true, lo_mask, hshift, map_some, mask_low]
  rfl

theorem mult_computes_iff (hphys : phys.Writable regFile) :
    SplitOp.MULT.Computes P regFile phys ↔ SplitOp.MULT.Fits P (regFile.getIntReg phys.in_0 32)
        (regFile.getIntReg phys.in_1 32) := by
  refine Iff.trans ?_ (@signedMul_widened_iff P _ _)
  unfold SplitOp.Computes SplitOp.execute
  simp only [multiplySplit_int32]
  refine (writeOuts_iff (Q := fun lo hi => SplitOp.Results _ _ lo hi .MULT) hphys).trans ?_
  constructor
  · rintro ⟨v_0, v_1, hlo, hhi, hresults⟩
    obtain ⟨p, hp, rfl⟩ := map_eq_some_iff.1 hlo
    rw [hp, map_some] at hhi
    cases hhi
    exact ⟨p, hp, hasProduct_halves_iff.1 hresults⟩
  · rintro ⟨p, hp, heq⟩
    rw [hp]
    exact ⟨_, _, rfl, rfl, hasProduct_halves_iff.2 heq⟩

theorem multu_computes_iff (hphys : phys.Writable regFile) :
    SplitOp.MULTU.Computes P regFile phys ↔ SplitOp.MULTU.Fits P (regFile.getIntReg phys.in_0 32)
        (regFile.getIntReg phys.in_1 32) := by
  have hwide : ∀ x y : BitVec 32, (x * y).setWidth 64 = BitVec.ofNat 64 (x.toNat * y.toNat) ↔
      x.toNat * y.toNat < 2 ^ 32 := by
    intro x y
    have hlt : x.toNat * y.toNat < 2 ^ 32 * 2 ^ 32 := Nat.mul_lt_mul'' x.isLt y.isLt
    rw [← BitVec.toNat_inj, BitVec.toNat_setWidth, BitVec.toNat_mul, BitVec.toNat_ofNat]
    omega
  refine Iff.trans ?_ (hwide _ _)
  unfold SplitOp.Computes SplitOp.execute
  simp only [multiplySplit_uint32]
  refine (writeOuts_iff (Q := fun lo hi => SplitOp.Results _ _ lo hi .MULTU) hphys).trans ?_
  constructor
  · rintro ⟨v_0, v_1, hlo, hhi, hresults⟩
    cases hlo
    cases hhi
    exact hasProduct_halves_iff.1 hresults
  · intro heq
    exact ⟨_, _, rfl, rfl, hasProduct_halves_iff.2 heq⟩

theorem hasQuotient_sdiv (hy : y ≠ 0) (hover : ¬ x.sdivOverflow y = true) :
    HasQuotient x y (x.sdiv y) (x.srem y) := by
  have hy' : y.toInt ≠ 0 := fun h => hy (BitVec.eq_of_toInt_eq h)
  have hquot : (x.sdiv y).toInt = x.toInt.tdiv y.toInt := by
    refine BitVec.toInt_sdiv_of_ne_or_ne x y ?_
    rw [← not_and_or]
    rintro ⟨hx, hy⟩
    rw [BitVec.sdivOverflow_eq, hx, hy] at hover
    exact hover (by decide)
  have hexact : (x.sdiv y).toInt * y.toInt + (x.srem y).toInt = x.toInt := by
    rw [hquot, BitVec.toInt_srem]
    exact Int.tdiv_mul_add_tmod x.toInt y.toInt
  refine ⟨?_, fun _ => hexact, ?_, ?_⟩
  · apply BitVec.eq_of_toInt_eq
    rw [BitVec.toInt_add, BitVec.toInt_mul, Int.bmod_add_bmod, hexact]
    exact Int.bmod_eq_of_le x.le_toInt x.toInt_lt
  · rw [BitVec.toInt_srem, Int.abs_eq_natAbs, Int.abs_eq_natAbs, Int.natAbs_tmod]
    exact Int.ofNat_lt.2 (mod_lt _ (Int.natAbs_pos.2 hy'))
  · rw [BitVec.toInt_srem]
    rcases le_total 0 x.toInt with hx | hx
    · exact mul_nonneg (Int.tmod_nonneg y.toInt hx) hx
    · refine mul_nonneg_of_nonpos_of_nonpos ?_ hx
      have hneg := Int.tmod_nonneg y.toInt (Int.neg_nonneg.2 hx)
      rw [Int.neg_tmod] at hneg
      exact Int.neg_nonneg.1 hneg

/-- The minimum divided by minus one has one result. -/
theorem hasQuotient_overflow_iff {q r : BitVec 32} (hover : x.sdivOverflow y = true) :
    HasQuotient x y q r ↔ q = x ∧ r = 0 := by
  rw [BitVec.sdivOverflow_eq] at hover
  simp only [Bool.and_eq_true, decide_eq_true_eq] at hover
  obtain ⟨⟨-, rfl⟩, rfl⟩ := hover
  constructor
  · intro h
    have hr : r = 0 := by
      apply BitVec.eq_of_toInt_eq
      exact Int.abs_lt_one_iff.1 h.lt
    refine ⟨?_, hr⟩
    have hjoined := h.joined
    rw [hr] at hjoined
    have hneg : q * BitVec.allOnes 32 = -q := by
      rw [← BitVec.neg_one_eq_allOnes, BitVec.mul_neg, BitVec.mul_one]
    rw [hneg, show -q + 0 = -q from BitVec.add_zero _] at hjoined
    rw [← BitVec.neg_neg (x := q), hjoined, BitVec.neg_intMin]
  · rintro ⟨rfl, rfl⟩
    refine ⟨by decide, fun h => absurd h (by decide), by decide, by decide⟩

section

variable (hphys : phys.Writable regFile) (hdivisor : regFile.getIntReg phys.in_1 32 ≠ 0)
include hphys hdivisor

theorem div_computes_iff :
    SplitOp.DIV.Computes P regFile phys ↔ SplitOp.DIV.Fits P (regFile.getIntReg phys.in_0 32)
        (regFile.getIntReg phys.in_1 32) := by
  have hexecute : VanadisDivideRemainderInstruction.execute P regFile phys .int32 =
      writeOuts regFile phys
        (signedDiv P (regFile.getIntReg phys.in_0 32) (regFile.getIntReg phys.in_1 32))
        (signedRem P (regFile.getIntReg phys.in_0 32) (regFile.getIntReg phys.in_1 32))
        true :=
    if_neg (Ne.symm hdivisor)
  unfold SplitOp.Computes SplitOp.execute
  simp only [hexecute]
  refine (writeOuts_iff (Q := fun lo hi => SplitOp.Results _ _ lo hi .DIV) hphys).trans ?_
  have hlow : ∀ z : BitVec 32, low (z.signExtend 64) = z := low_sext
  simp only [SplitOp.Results, SplitOp.Fits, if_true, hlow]
  by_cases hover : (regFile.getIntReg phys.in_0 32).sdivOverflow
      (regFile.getIntReg phys.in_1 32) = true
  · simp only [signedDiv, signedRem, hasQuotient_overflow_iff hover, hover, forall_const, or_true,
      if_true]
    constructor
    · rintro ⟨q, r, hquot, hrem, rfl, rfl⟩
      exact ⟨hquot, hrem⟩
    · rintro ⟨hquot, hrem⟩
      exact ⟨_, _, hquot, hrem, rfl, rfl⟩
  · have hdefined : ¬ (regFile.getIntReg phys.in_1 32 = 0 ∨
        (regFile.getIntReg phys.in_0 32).sdivOverflow (regFile.getIntReg phys.in_1 32)) :=
      not_or.2 ⟨hdivisor, hover⟩
    simp only [signedDiv, signedRem, if_neg hdefined]
    refine iff_of_true ⟨_, _, rfl, rfl, ?_⟩ fun h => absurd h hover
    exact hasQuotient_sdiv hdivisor hover

theorem divu_computes : SplitOp.DIVU.Computes P regFile phys := by
  have hexecute : VanadisDivideRemainderInstruction.execute P regFile phys .uint32 =
      writeOuts regFile phys
        (unsignedDiv P (regFile.getIntReg phys.in_0 32) (regFile.getIntReg phys.in_1 32))
        (unsignedRem P (regFile.getIntReg phys.in_0 32) (regFile.getIntReg phys.in_1 32))
        false :=
    if_neg (Ne.symm hdivisor)
  unfold SplitOp.Computes SplitOp.execute
  simp only [hexecute]
  refine (writeOuts_iff (Q := fun lo hi => SplitOp.Results _ _ lo hi .DIVU) hphys).2 ?_
  refine ⟨_, _, unsignedDiv_of_ne hdivisor, unsignedRem_of_ne hdivisor, ?_⟩
  have hlow : ∀ z : BitVec 32, low (z.setWidth 64) = z := fun z => by simp [low]
  have hpos : 0 < (regFile.getIntReg phys.in_1 32).toNat := by
    rw [Nat.pos_iff_ne_zero]
    exact fun h => hdivisor (BitVec.eq_of_toNat_eq h)
  simp only [SplitOp.Results, Bool.false_eq_true, if_false, hlow]
  refine ⟨?_, ?_⟩
  · rw [BitVec.udiv_eq, BitVec.umod_eq, BitVec.toNat_udiv, BitVec.toNat_umod, mul_comm]
    exact div_add_mod _ _
  · rw [BitVec.umod_eq, BitVec.toNat_umod]
    exact mod_lt _ hpos

end

/--
An instruction leaves its results exactly if the operands fit: the product of
a multiplication in 32 bits, and the operands of a signed division have a
quotient.
-/
theorem splitOp_computes_iff (P : Platform) {count : Nat} (regFile : RegisterFile count)
    (phys : SplitRegs count) (op : SplitOp)
    (hphys : phys.Writable regFile)
    (hdivisor : op = .DIV ∨ op = .DIVU → regFile.getIntReg phys.in_1 32 ≠ 0) :
    op.Computes P regFile phys ↔
      op.Fits P (regFile.getIntReg phys.in_0 32) (regFile.getIntReg phys.in_1 32) := by
  cases op with
  | MULT => exact mult_computes_iff hphys
  | MULTU => exact multu_computes_iff hphys
  | DIV => exact div_computes_iff hphys (hdivisor (.inl rfl))
  | DIVU => exact iff_of_true (divu_computes hphys (hdivisor (.inr rfl))) trivial

/-- Seven times two is computed. -/
theorem splitOp_computes_iff_multu :
    SplitOp.MULTU.Computes ⟨fun _ _ _ _ => none⟩
      (⟨0, fun reg => if reg.val = 1 then 7 else 2⟩ : RegisterFile 5) ⟨1, 2, 3, 4⟩ :=
  (splitOp_computes_iff ⟨fun _ _ _ _ => none⟩
    (⟨0, fun reg => if reg.val = 1 then 7 else 2⟩ : RegisterFile 5) ⟨1, 2, 3, 4⟩ .MULTU
    ⟨by decide, by decide, by decide⟩ (by decide)).mpr
    (by unfold SplitOp.Fits; decide +kernel)

/-- The product of two times the greatest power of two loses its high half. -/
theorem not_computes_multu_wide :
    ¬ SplitOp.MULTU.Computes ⟨fun _ _ _ _ => none⟩
      (⟨0, fun reg => if reg.val = 1 then 0xFFFFFFFF80000000 else 2⟩ : RegisterFile 5)
      ⟨1, 2, 3, 4⟩ := by
  rintro ⟨file, hfile, hresults⟩
  obtain rfl := congrArg Executed.regFile (Except.ok.inj hfile)
  have hhigh := hresults.hi_eq
  revert hhigh
  decide +kernel

end Main

end SstElements.Vanadis
