import SstElements.Library.MachineWord

/-!
# The register file and the integer micro-operations

Registers have 64 bits.  Values of 32 bits are read from the low half and are
extended when they are written; one register always reads as zero.

The multiplications, divisions and shifts are as the RISC-V decoder instantiates
them, with the values that the instruction set gives to them.
-/

namespace SstElements.Vanadis

/-- The integer registers, of which one takes no writes. -/
structure RegisterFile (count_int_regs : Nat) where
  register_ignore_writes : Nat
  int_reg_storage : Fin count_int_regs → BitVec 64

namespace RegisterFile

variable {count w : Nat} (rf : RegisterFile count) (reg : Fin count)

def getIntReg (w : Nat) : BitVec w :=
  if reg.val ≠ rf.register_ignore_writes then
    (rf.int_reg_storage reg).setWidth w
  else
    0

def setIntReg (val : BitVec w) (sign_extend : Bool) : RegisterFile count :=
  if reg.val ≠ rf.register_ignore_writes then
    { rf with
      int_reg_storage := Function.update rf.int_reg_storage reg
        (if sign_extend then val.signExtend 64 else val.setWidth 64) }
  else
    rf

variable {rf reg}

theorem getIntReg_narrow (hw : w ≤ 64) : rf.getIntReg reg w = (rf.getIntReg reg 64).setWidth w := by
  unfold getIntReg
  split
  · rw [BitVec.setWidth_setWidth_of_le _ hw]
  · simp

variable {sign_extend : Bool} {val : BitVec w}

theorem setIntReg_narrow :
    rf.setIntReg reg val sign_extend = rf.setIntReg reg
        (if sign_extend then val.signExtend 64 else val.setWidth 64) true := by
  unfold setIntReg
  cases sign_extend <;> simp

theorem getIntReg_setIntReg_self (hreg : reg.val ≠ rf.register_ignore_writes) :
    (rf.setIntReg reg val sign_extend).getIntReg reg 64 =
      if sign_extend then val.signExtend 64 else val.setWidth 64 := by
  simp [setIntReg, getIntReg, hreg]

theorem getIntReg_setIntReg_of_ne {other : Fin count} (hne : other ≠ reg) :
    (rf.setIntReg reg val sign_extend).getIntReg other 64 = rf.getIntReg other 64 := by
  unfold setIntReg getIntReg
  split
  · simp only [Function.update_of_ne hne]
  · rfl

theorem setIntReg_inj {v v' : BitVec 64} (hreg : reg.val ≠ rf.register_ignore_writes)
    (h : rf.setIntReg reg v true = rf.setIntReg reg v' true) :
    v = v' := by
  simp only [setIntReg, if_pos hreg] at h
  have hstorage := congrArg (fun r => r.int_reg_storage reg) h
  simpa using hstorage

end RegisterFile

section Operations

open Library.MachineArithmetic BitVec Nat

section Instructions

/-- The types that stand for a register's contents. -/
inductive GprFormat where
  | int32
  | uint32
  | int64
  | uint64
  deriving DecidableEq, Repr

def GprFormat.bits : GprFormat → Nat
  | .int32 => 32
  | .uint32 => 32
  | .int64 => 64
  | .uint64 => 64

def GprFormat.isSigned : GprFormat → Bool
  | .int32 => true
  | .uint32 => false
  | .int64 => true
  | .uint64 => false

inductive VanadisRegisterFormat where
  | VANADIS_FORMAT_FP32
  | VANADIS_FORMAT_FP64
  | VANADIS_FORMAT_INT32
  | VANADIS_FORMAT_INT64
  deriving DecidableEq, Repr

/-- How an execution ends that does not come back. -/
inductive Fault where
  | assertion
  | trap
  deriving DecidableEq, Repr

/-- The register file after an execution, and whether an error is flagged. -/
structure Executed (count : Nat) where
  regFile : RegisterFile count
  trapError : Bool

/-- The physical registers of an instruction. -/
structure PhysRegs (count : Nat) where
  in_0 : Fin count
  in_1 : Fin count
  out_0 : Fin count

variable {count w : Nat} (P : Platform) (regFile : RegisterFile count)
variable (phys : PhysRegs count)

/-- The value is written to the output register, unless there was a trap. -/
def writeOut (val : Option (BitVec w)) (sign_extend : Bool) : Except Fault (Executed count) :=
  match val with
  | none => .error .trap
  | some v => .ok ⟨regFile.setIntReg phys.out_0 v sign_extend, false⟩

def flagError : Except Fault (Executed count) := .ok ⟨regFile, true⟩

def VanadisMultiplyInstruction.execute (gpr_format : GprFormat) : Except Fault (Executed count) :=
  let src_1 := regFile.getIntReg phys.in_0 gpr_format.bits
  let src_2 := regFile.getIntReg phys.in_1 gpr_format.bits
  writeOut regFile phys
    (if gpr_format.isSigned then signedMul P src_1 src_2 else some (src_1 * src_2)) true

/-- A register as a number of 128 bits. -/
def widen (gpr_format : GprFormat) (src : BitVec gpr_format.bits) : BitVec 128 :=
  if gpr_format.isSigned then src.signExtend 128 else src.setWidth 128

def VanadisMultiplyHighInstruction.execute (gpr_format_1 gpr_format_2 : GprFormat) :
    Except Fault (Executed count) :=
  let src_1 := widen gpr_format_1 (regFile.getIntReg phys.in_0 gpr_format_1.bits)
  let src_2 := widen gpr_format_2 (regFile.getIntReg phys.in_1 gpr_format_2.bits)
  if !gpr_format_1.isSigned && gpr_format_2.isSigned then
    .error .assertion
  else
    writeOut regFile phys
      (some (((src_1 * src_2) >>> gpr_format_1.bits).setWidth 64)) true

def VanadisDivideInstruction.execute (gpr_format : GprFormat) : Except Fault (Executed count) :=
  let src_1 := regFile.getIntReg phys.in_0 gpr_format.bits
  let src_2 := regFile.getIntReg phys.in_1 gpr_format.bits
  if 0 = src_2 then
    flagError regFile
  else
    writeOut regFile phys
      (if gpr_format.isSigned then signedDiv P src_1 src_2
      else unsignedDiv P src_1 src_2) true

def VanadisModuloInstruction.execute (gpr_format : GprFormat) : Except Fault (Executed count) :=
  let src_1 := (regFile.getIntReg phys.in_0 64).setWidth gpr_format.bits
  let src_2 := (regFile.getIntReg phys.in_1 64).setWidth gpr_format.bits
  if 0 = src_2 then
    writeOut regFile phys (some src_1) gpr_format.isSigned
  else
    writeOut regFile phys
      (if gpr_format.isSigned then signedRem P src_1 src_2
      else unsignedRem P src_1 src_2) gpr_format.isSigned

def VanadisShiftLeftLogicalInstruction.execute :
    VanadisRegisterFormat → Except Fault (Executed count)
  | .VANADIS_FORMAT_INT64 =>
    let src_1 := regFile.getIntReg phys.in_0 64
    let src_2 := regFile.getIntReg phys.in_1 64
    if 0 = src_2 then
      writeOut regFile phys (some (regFile.getIntReg phys.in_0 32)) true
    else
      writeOut regFile phys (shiftLeft P src_1 src_2) true
  | .VANADIS_FORMAT_INT32 =>
    let src_1 := regFile.getIntReg phys.in_0 32
    let src_2 := regFile.getIntReg phys.in_1 32 &&& 0x1F
    if 0 = src_2 then
      writeOut regFile phys (some src_1) true
    else
      writeOut regFile phys (shiftLeft P src_1 src_2) true
  | _ => flagError regFile

def VanadisShiftRightLogicalInstruction.execute :
    VanadisRegisterFormat → Except Fault (Executed count)
  | .VANADIS_FORMAT_INT64 =>
    let src_1 := regFile.getIntReg phys.in_0 64
    let src_2 := regFile.getIntReg phys.in_1 64
    if 0 = src_2 then
      writeOut regFile phys (some (regFile.getIntReg phys.in_0 32)) true
    else
      writeOut regFile phys (shiftRight P src_1 src_2) true
  | .VANADIS_FORMAT_INT32 =>
    let src_1 := regFile.getIntReg phys.in_0 32
    let src_2 := regFile.getIntReg phys.in_1 32 &&& 0x1F
    if 0 = src_2 then
      writeOut regFile phys (some src_1) true
    else
      writeOut regFile phys (shiftRight P src_1 src_2) true
  | _ => flagError regFile

def VanadisShiftRightArithmeticInstruction.execute :
    VanadisRegisterFormat → Except Fault (Executed count)
  | .VANADIS_FORMAT_INT64 =>
    let src_1 := regFile.getIntReg phys.in_0 64
    let src_2 := regFile.getIntReg phys.in_1 64
    if 0 = src_2 then
      writeOut regFile phys (some (regFile.getIntReg phys.in_0 32)) true
    else
      writeOut regFile phys (arithmeticShiftRight P src_1 src_2) true
  | .VANADIS_FORMAT_INT32 =>
    let src_1 := regFile.getIntReg phys.in_0 32
    let src_2 := regFile.getIntReg phys.in_1 32 &&& 0x1F
    if 0 = src_2 then
      writeOut regFile phys (some src_1) true
    else
      writeOut regFile phys (arithmeticShiftRight P src_1 src_2) true
  | _ => flagError regFile

/-- The immediate is kept in the format of the registers. -/
def VanadisShiftLeftLogicalImmInstruction.execute (register_format : GprFormat)
    (imm_value : BitVec register_format.bits) : Except Fault (Executed count) :=
  if imm_value = 0 then
    .error .assertion
  else
    let src_1 := regFile.getIntReg phys.in_0 register_format.bits
    writeOut regFile phys (shiftLeft P src_1 imm_value) true

def VanadisShiftRightLogicalImmInstruction.execute (imm_value : BitVec 64)
    (register_format : VanadisRegisterFormat) : Except Fault (Executed count) :=
  if imm_value = 0 then
    .error .assertion
  else
    match register_format with
    | .VANADIS_FORMAT_INT64 =>
      let src_1 := regFile.getIntReg phys.in_0 64
      writeOut regFile phys (shiftRight P src_1 imm_value) true
    | .VANADIS_FORMAT_INT32 =>
      let src_1 := regFile.getIntReg phys.in_0 32
      let imm_value_32 := imm_value.setWidth 32
      writeOut regFile phys (shiftRight P src_1 imm_value_32) true
    | _ => flagError regFile

def VanadisShiftRightArithmeticImmInstruction.execute (imm_value : BitVec 64)
    (register_format : VanadisRegisterFormat) : Except Fault (Executed count) :=
  if 0 < imm_value.toInt then
    match register_format with
    | .VANADIS_FORMAT_INT64 =>
      let src_1 := regFile.getIntReg phys.in_0 64
      writeOut regFile phys (arithmeticShiftRight P src_1 imm_value) true
    | .VANADIS_FORMAT_INT32 =>
      let src_1 := regFile.getIntReg phys.in_0 32
      let imm_value_32 := imm_value.setWidth 32
      writeOut regFile phys (arithmeticShiftRight P src_1 imm_value_32) true
    | _ => flagError regFile
  else
    flagError regFile

end Instructions

section Decoder

/--
The multiplications, divisions and shifts that the decoder knows; shift amounts
in the instruction have six bits, or five for the 32-bit formats.
-/
inductive Op where
  | MUL
  | MULHU
  | DIV
  | DIVU
  | REM
  | REMU
  | SLL
  | SRL
  | SRA
  | MULW
  | DIVW
  | DIVUW
  | REMW
  | REMUW
  | SLLW
  | SRLW
  | SRAW
  | SLLI (shift_by : BitVec 6)
  | SRLI (shift_by : BitVec 6)
  | SRAI (shift_by : BitVec 6)
  | SLLIW (rs2 : BitVec 5)
  | SRLIW (rs2 : BitVec 5)
  | SRAIW (rs2 : BitVec 5)
  deriving DecidableEq, Repr

variable {count : Nat} (P : Platform) (regFile : RegisterFile count)
variable (phys : PhysRegs count)

/-- The instruction that the decoder makes, when it executes. -/
def Op.execute : Op → Except Fault (Executed count)
  | .MUL => VanadisMultiplyInstruction.execute P regFile phys .int64
  | .MULHU => VanadisMultiplyHighInstruction.execute regFile phys .uint64 .uint64
  | .DIV => VanadisDivideInstruction.execute P regFile phys .int64
  | .DIVU => VanadisDivideInstruction.execute P regFile phys .uint64
  | .REM => VanadisModuloInstruction.execute P regFile phys .int64
  | .REMU => VanadisModuloInstruction.execute P regFile phys .uint64
  | .SLL => VanadisShiftLeftLogicalInstruction.execute P regFile phys .VANADIS_FORMAT_INT64
  | .SRL => VanadisShiftRightLogicalInstruction.execute P regFile phys .VANADIS_FORMAT_INT64
  | .SRA =>
    VanadisShiftRightArithmeticInstruction.execute P regFile phys .VANADIS_FORMAT_INT64
  | .MULW => VanadisMultiplyInstruction.execute P regFile phys .int32
  | .DIVW => VanadisDivideInstruction.execute P regFile phys .int32
  | .DIVUW => VanadisDivideInstruction.execute P regFile phys .uint32
  | .REMW => VanadisModuloInstruction.execute P regFile phys .int32
  | .REMUW => VanadisModuloInstruction.execute P regFile phys .uint32
  | .SLLW => VanadisShiftLeftLogicalInstruction.execute P regFile phys .VANADIS_FORMAT_INT32
  | .SRLW => VanadisShiftRightLogicalInstruction.execute P regFile phys .VANADIS_FORMAT_INT32
  | .SRAW =>
    VanadisShiftRightArithmeticInstruction.execute P regFile phys .VANADIS_FORMAT_INT32
  | .SLLI shift_by =>
    VanadisShiftLeftLogicalImmInstruction.execute P regFile phys .uint64
      (shift_by.setWidth 64)
  | .SRLI shift_by =>
    VanadisShiftRightLogicalImmInstruction.execute P regFile phys
      (shift_by.setWidth 64) .VANADIS_FORMAT_INT64
  | .SRAI shift_by =>
    VanadisShiftRightArithmeticImmInstruction.execute P regFile phys
      (shift_by.setWidth 64) .VANADIS_FORMAT_INT64
  | .SLLIW rs2 =>
    VanadisShiftLeftLogicalImmInstruction.execute P regFile phys .uint32
      (rs2.setWidth 32)
  | .SRLIW rs2 =>
    VanadisShiftRightLogicalImmInstruction.execute P regFile phys
      (rs2.setWidth 64) .VANADIS_FORMAT_INT32
  | .SRAIW rs2 =>
    VanadisShiftRightArithmeticImmInstruction.execute P regFile phys
      (rs2.setWidth 64) .VANADIS_FORMAT_INT32

end Decoder

section Isa

/-- The low half of a register. -/
def low (x : BitVec 64) : BitVec 32 := x.setWidth 32

/-- A result of 32 bits in a register of 64 bits. -/
def sext (x : BitVec 32) : BitVec 64 := x.signExtend 64

/-- The quotients and remainders of the instruction set, division by zero included. -/
def isaDiv {w : Nat} (x y : BitVec w) : BitVec w :=
  if y = 0 then BitVec.allOnes w else BitVec.ofInt w (x.toInt.tdiv y.toInt)

def isaDivU {w : Nat} (x y : BitVec w) : BitVec w :=
  if y = 0 then BitVec.allOnes w else BitVec.ofNat w (x.toNat / y.toNat)

def isaRem {w : Nat} (x y : BitVec w) : BitVec w :=
  if y = 0 then x else BitVec.ofInt w (x.toInt.tmod y.toInt)

def isaRemU {w : Nat} (x y : BitVec w) : BitVec w :=
  if y = 0 then x else BitVec.ofNat w (x.toNat % y.toNat)

/-- The value that the instruction set gives to an instruction. -/
def Op.isaValue (x y : BitVec 64) : Op → BitVec 64
  | .MUL => BitVec.ofInt 64 (x.toInt * y.toInt)
  | .MULHU => BitVec.ofNat 64 (x.toNat * y.toNat / 2 ^ 64)
  | .DIV => isaDiv x y
  | .DIVU => isaDivU x y
  | .REM => isaRem x y
  | .REMU => isaRemU x y
  | .SLL => x <<< (y.toNat % 64)
  | .SRL => x >>> (y.toNat % 64)
  | .SRA => x.sshiftRight (y.toNat % 64)
  | .MULW => sext (BitVec.ofInt 32 ((low x).toInt * (low y).toInt))
  | .DIVW => sext (isaDiv (low x) (low y))
  | .DIVUW => sext (isaDivU (low x) (low y))
  | .REMW => sext (isaRem (low x) (low y))
  | .REMUW => sext (isaRemU (low x) (low y))
  | .SLLW => sext (low x <<< (y.toNat % 32))
  | .SRLW => sext (low x >>> (y.toNat % 32))
  | .SRAW => sext ((low x).sshiftRight (y.toNat % 32))
  | .SLLI shift_by => x <<< shift_by.toNat
  | .SRLI shift_by => x >>> shift_by.toNat
  | .SRAI shift_by => x.sshiftRight shift_by.toNat
  | .SLLIW rs2 => sext (low x <<< rs2.toNat)
  | .SRLIW rs2 => sext (low x >>> rs2.toNat)
  | .SRAIW rs2 => sext ((low x).sshiftRight rs2.toNat)

/-- A shift by zero keeps only the low half, one past the width is undefined. -/
def ShiftFits (P : Platform) (op : PartialOp) (x y isa : BitVec 64) : Prop :=
  if y = 0 then
    sext (low x) = x
  else
    64 ≤ y.toNat → P.undefined op 64 x y = some isa

/--
The operands for which an instruction computes the value of the instruction
set.  Where the language gives no meaning, the platform has to give this value.
-/
def Op.Fits (P : Platform) (x y : BitVec 64) : Op → Prop
  | .MUL =>
    x.smulOverflow y →
      P.undefined .product 64 x y = some (BitVec.ofInt 64 (x.toInt * y.toInt))
  | .MULHU => True
  | .DIV =>
    y ≠ 0 ∧ (x.sdivOverflow y → P.undefined .quotient 64 x y = some (isaDiv x y))
  | .DIVU => y ≠ 0
  | .REM =>
    y ≠ 0 → x.sdivOverflow y → P.undefined .remainder 64 x y = some (isaRem x y)
  | .REMU => True
  | .SLL => ShiftFits P .shiftLeft x y (x <<< (y.toNat % 64))
  | .SRL => ShiftFits P .shiftRight x y (x >>> (y.toNat % 64))
  | .SRA => ShiftFits P .arithmeticShiftRight x y (x.sshiftRight (y.toNat % 64))
  | .MULW =>
    (low x).smulOverflow (low y) →
      P.undefined .product 32 (low x) (low y) =
        some (BitVec.ofInt 32 ((low x).toInt * (low y).toInt))
  | .DIVW =>
    low y ≠ 0 ∧ ((low x).sdivOverflow (low y) →
      P.undefined .quotient 32 (low x) (low y) = some (isaDiv (low x) (low y)))
  | .DIVUW => low y ≠ 0
  | .REMW =>
    low y ≠ 0 → (low x).sdivOverflow (low y) →
      P.undefined .remainder 32 (low x) (low y) = some (isaRem (low x) (low y))
  | .REMUW => (low x).toNat < 2 ^ 31 ∨ (low y ≠ 0 ∧ (low y).toNat ≤ (low x).toNat)
  | .SLLW => True
  | .SRLW => True
  | .SRAW => True
  | .SLLI shift_by => shift_by ≠ 0
  | .SRLI shift_by => shift_by ≠ 0
  | .SRAI shift_by => shift_by ≠ 0
  | .SLLIW rs2 => rs2 ≠ 0
  | .SRLIW rs2 => rs2 ≠ 0
  | .SRAIW rs2 => rs2 ≠ 0

/-- The instruction writes the value of the instruction set, without an error. -/
def Computes {count : Nat} (P : Platform) (regFile : RegisterFile count)
    (phys : PhysRegs count) (op : Op) : Prop :=
  op.execute P regFile phys =
    .ok ⟨regFile.setIntReg phys.out_0
      (op.isaValue (regFile.getIntReg phys.in_0 64) (regFile.getIntReg phys.in_1 64)) true, false⟩

end Isa

section Writes

variable {count w : Nat} {regFile : RegisterFile count}
variable {phys : PhysRegs count}

theorem writeOut_iff {val : Option (BitVec w)} {z : BitVec w} (hw : w ≤ 64)
    (hout : phys.out_0.val ≠ regFile.register_ignore_writes) :
    writeOut regFile phys val true =
        .ok ⟨regFile.setIntReg phys.out_0 (z.signExtend 64) true, false⟩ ↔ val = some z := by
  constructor
  · intro h
    cases val with
    | none => cases h
    | some v =>
      have hfile := congrArg Executed.regFile (Except.ok.inj h)
      rw [RegisterFile.setIntReg_narrow, if_pos rfl] at hfile
      rw [signExtend_inj hw (RegisterFile.setIntReg_inj hout hfile)]
  · rintro rfl
    rw [writeOut, RegisterFile.setIntReg_narrow, if_pos rfl]

end Writes

variable {partialShift : BitVec 32 → BitVec 32 → Option (BitVec 32)}
variable {shift : BitVec 32 → Nat → BitVec 32}

section Steps

variable {count : Nat} {P : Platform} {regFile : RegisterFile count}
variable {phys : PhysRegs count} {w : Nat}

theorem partial_eq_some_iff {bad : Prop} [Decidable bad] {u : Option (BitVec w)} {v z : BitVec w}
    (hv : ¬ bad → v = z) :
    (if bad then u else some v) = some z ↔ (bad → u = some z) := by
  rw [ite_undefined_eq_some_iff]
  exact and_iff_left hv

theorem signedMul_iff {x y : BitVec w} :
    signedMul P x y = some (BitVec.ofInt w (x.toInt * y.toInt)) ↔
      (x.smulOverflow y → P.undefined .product w x y = some (BitVec.ofInt w (x.toInt * y.toInt))) :=
  partial_eq_some_iff (fun _ => mul_eq_ofInt x y)

theorem signedDiv_iff {x y : BitVec w} (hy : y ≠ 0) :
    signedDiv P x y = some (isaDiv x y) ↔
      (x.sdivOverflow y → P.undefined .quotient w x y = some (isaDiv x y)) := by
  rw [signedDiv, partial_eq_some_iff]
  · exact imp_congr_left (or_iff_right hy)
  · intro _
    rw [isaDiv, if_neg hy, sdiv_eq_ofInt]

theorem signedRem_iff {x y : BitVec w} (hy : y ≠ 0) :
    signedRem P x y = some (isaRem x y) ↔
      (x.sdivOverflow y → P.undefined .remainder w x y = some (isaRem x y)) := by
  rw [signedRem, partial_eq_some_iff]
  · exact imp_congr_left (or_iff_right hy)
  · intro _
    rw [isaRem, if_neg hy, srem_eq_ofInt]

theorem divide_iff {f : GprFormat} {x y z : BitVec f.bits}
    (hx : regFile.getIntReg phys.in_0 f.bits = x) (hy : regFile.getIntReg phys.in_1 f.bits = y)
    (hout : phys.out_0.val ≠ regFile.register_ignore_writes) :
    VanadisDivideInstruction.execute P regFile phys f =
        .ok ⟨regFile.setIntReg phys.out_0 (z.signExtend 64) true, false⟩ ↔ y ≠ 0 ∧
        (if f.isSigned then signedDiv P x y else unsignedDiv P x y) = some z := by
  have hbits : f.bits ≤ 64 := by cases f <;> decide
  simp only [VanadisDivideInstruction.execute, hx, hy]
  by_cases hzero : (0 : BitVec f.bits) = y
  · rw [if_pos hzero]
    constructor
    · intro h
      exact absurd (congrArg Executed.trapError (Except.ok.inj h)) (by simp)
    · exact fun h => absurd hzero.symm h.1
  · rw [if_neg hzero, writeOut_iff hbits hout]
    exact (and_iff_right (Ne.symm hzero)).symm

theorem mask_toNat (y : BitVec 64) : (low y &&& 0x1F).toNat = y.toNat % 32 := by
  rw [toNat_and, low, toNat_setWidth]
  have hmask : (0x1F : BitVec 32).toNat = 2 ^ 5 - 1 := rfl
  rw [hmask, and_two_pow_sub_one_eq_mod]
  omega

theorem mask_ne_zero_iff (y : BitVec 64) : (0 : BitVec 32) = low y &&& 0x1F ↔ y.toNat % 32 = 0 := by
  rw [← mask_toNat y, eq_comm, ← toNat_inj]
  rfl

theorem shift32_eq {x : BitVec 32} {y : BitVec 64}
    (hdefined : ∀ x c : BitVec 32, c.toNat < 32 → partialShift x c = some (shift x c.toNat))
    (hzero : ∀ x, shift x 0 = x) (hout : phys.out_0.val ≠ regFile.register_ignore_writes) :
    (if (0 : BitVec 32) = low y &&& 0x1F then
        writeOut regFile phys (some x) true
      else
        writeOut regFile phys (partialShift x (low y &&& 0x1F)) true) =
      .ok ⟨regFile.setIntReg phys.out_0 (sext (shift x (y.toNat % 32))) true, false⟩ := by
  split
  · rename_i h
    rw [(mask_ne_zero_iff y).mp h, hzero]
    exact (writeOut_iff (by decide) hout).mpr rfl
  · refine (writeOut_iff (by decide) hout).mpr ?_
    rw [hdefined _ _ (mask_toNat y ▸ mod_lt _ (by decide)), mask_toNat]

theorem shift64_iff {op : PartialOp} {shift : BitVec 64 → Nat → BitVec 64}
    {partialShift : BitVec 64 → BitVec 64 → Option (BitVec 64)} {x y : BitVec 64}
    (hshift : ∀ x c : BitVec 64, partialShift x c =
      if c.toNat < 64 then some (shift x c.toNat) else P.undefined op 64 x c)
    (hzero : ∀ x, shift x 0 = x) (hout : phys.out_0.val ≠ regFile.register_ignore_writes) :
    (if (0 : BitVec 64) = y then
        writeOut regFile phys (some (low x)) true
      else
        writeOut regFile phys (partialShift x y) true) =
        .ok ⟨regFile.setIntReg phys.out_0 (shift x (y.toNat % 64)) true, false⟩ ↔
      ShiftFits P op x y (shift x (y.toNat % 64)) := by
  unfold ShiftFits
  by_cases hy : y = 0
  · subst hy
    have hcount : (0 : BitVec 64).toNat % 64 = 0 := rfl
    rw [if_pos rfl, if_pos rfl, hcount, hzero, writeOut, RegisterFile.setIntReg_narrow, if_pos rfl]
    constructor
    · intro h
      exact RegisterFile.setIntReg_inj hout
        (congrArg Executed.regFile (Except.ok.inj h))
    · intro h
      rw [show (low x).signExtend 64 = x from h]
  · rw [if_neg (Ne.symm hy), if_neg hy, hshift]
    have hiff := @writeOut_iff count 64 regFile phys
      (if y.toNat < 64 then some (shift x y.toNat) else P.undefined op 64 x y)
      (shift x (y.toNat % 64)) (by decide) hout
    rw [signExtend_eq] at hiff
    rw [hiff]
    split
    · rename_i hlt
      rw [mod_eq_of_lt hlt]
      exact iff_of_true rfl fun hge => absurd hlt (Nat.not_lt_of_le hge)
    · rename_i hge
      exact (imp_iff_right (Nat.le_of_not_lt hge)).symm

theorem modulo_iff {f : GprFormat} {x y z : BitVec f.bits}
    (hx : (regFile.getIntReg phys.in_0 64).setWidth f.bits = x)
    (hy : (regFile.getIntReg phys.in_1 64).setWidth f.bits = y) (hsigned : f.isSigned = true)
    (hout : phys.out_0.val ≠ regFile.register_ignore_writes) :
    VanadisModuloInstruction.execute P regFile phys f =
        .ok ⟨regFile.setIntReg phys.out_0 (z.signExtend 64) true, false⟩ ↔
      (if y = 0 then x = z else signedRem P x y = some z) := by
  have hbits : f.bits ≤ 64 := by cases f <;> decide
  simp only [VanadisModuloInstruction.execute, hx, hy, hsigned, if_true]
  by_cases hzero : (0 : BitVec f.bits) = y
  · rw [if_pos hzero, if_pos hzero.symm, writeOut_iff hbits hout, Option.some_inj]
  · rw [if_neg hzero, if_neg (Ne.symm hzero), writeOut_iff hbits hout]

theorem low_isaRemU_msb {x y : BitVec 32} :
    sext (isaRemU x y) = (isaRemU x y).setWidth 64 ↔
      (x.toNat < 2 ^ 31 ∨ (y ≠ 0 ∧ y.toNat ≤ x.toNat)) := by
  have hext : ∀ r : BitVec 32, sext r = r.setWidth 64 ↔ r.toNat < 2 ^ 31 := by
    intro r
    have hmsb := @BitVec.msb_eq_decide 32 r
    rw [sext, ← toNat_inj, toNat_signExtend, hmsb, toNat_setWidth]
    by_cases hr : r.toNat < 2 ^ 31
    · have hdec : decide (2 ^ (32 - 1) ≤ r.toNat) = false := by simpa using hr
      simp only [hdec, hr, iff_true]
      simp
    · have hdec : decide (2 ^ (32 - 1) ≤ r.toNat) = true := by simpa using hr
      simp only [hdec, if_true, hr, iff_false]
      omega
  rw [hext, isaRemU]
  have hy := @BitVec.toNat_eq 32 y 0
  split
  · rename_i hzero
    exact ⟨.inl, fun h => h.resolve_right (fun hand => hand.1 hzero)⟩
  · rename_i hne
    have hpos : 0 < y.toNat := pos_of_ne_zero (fun h => hne (hy.mpr h))
    have hmod := mod_lt x.toNat hpos
    rw [BitVec.toNat_ofNat, mod_eq_of_lt (by omega)]
    constructor
    · intro h
      by_cases hle : y.toNat ≤ x.toNat
      · exact .inr ⟨hne, hle⟩
      · rw [mod_eq_of_lt (by omega)] at h
        exact .inl h
    · rintro (h | ⟨-, hle⟩)
      · exact (mod_le _ _).trans_lt h
      · rw [mod_eq_sub_mod hle]
        have hle' := mod_le (x.toNat - y.toNat) y.toNat
        have hlt' := mod_lt (x.toNat - y.toNat) hpos
        omega

end Steps

section Main

variable {count : Nat} {P : Platform} {regFile : RegisterFile count}
variable {phys : PhysRegs count}

theorem getIntReg_low {reg : Fin count} :
    regFile.getIntReg reg 32 = low (regFile.getIntReg reg 64) :=
  RegisterFile.getIntReg_narrow (by decide)

theorem writeOut64_iff {val : Option (BitVec 64)} {z : BitVec 64}
    (hout : phys.out_0.val ≠ regFile.register_ignore_writes) :
    writeOut regFile phys val true = .ok ⟨regFile.setIntReg phys.out_0 z true, false⟩ ↔
      val = some z := by
  have hiff := @writeOut_iff count 64 regFile phys val z (by decide) hout
  rwa [signExtend_eq] at hiff

theorem multiplyHigh_computes : Computes P regFile phys .MULHU := by
  have hvalue : ∀ x y : BitVec 64,
      ((x.setWidth 128 * y.setWidth 128) >>> 64).setWidth 64 =
        BitVec.ofNat 64 (x.toNat * y.toNat / 2 ^ 64) := by
    intro x y
    have hmul : x.toNat * y.toNat < 2 ^ 128 := by
      have := Nat.mul_lt_mul'' x.isLt y.isLt
      simpa [← Nat.pow_add] using this
    apply eq_of_toNat_eq
    rw [toNat_setWidth, toNat_ushiftRight, toNat_mul,
      toNat_setWidth, toNat_setWidth, BitVec.toNat_ofNat,
      mod_eq_of_lt (x.isLt.trans (by decide)),
      mod_eq_of_lt (y.isLt.trans (by decide)), mod_eq_of_lt hmul, shiftRight_eq_div_pow]
  unfold Computes Op.execute VanadisMultiplyHighInstruction.execute Op.isaValue
  rw [← hvalue]
  rfl

theorem unsignedDiv_eq {w : Nat} {x y : BitVec w} (hy : y ≠ 0) :
    unsignedDiv P x y = some (isaDivU x y) := by
  rw [unsignedDiv_of_ne hy, isaDivU, if_neg hy, udiv_eq_ofNat]

theorem moduloU_eq {f : GprFormat} {x y : BitVec f.bits}
    (hx : (regFile.getIntReg phys.in_0 64).setWidth f.bits = x)
    (hy : (regFile.getIntReg phys.in_1 64).setWidth f.bits = y) (hsigned : f.isSigned = false) :
    VanadisModuloInstruction.execute P regFile phys f =
      .ok ⟨regFile.setIntReg phys.out_0 ((isaRemU x y).setWidth 64) true, false⟩ := by
  simp only [VanadisModuloInstruction.execute, hx, hy, hsigned, Bool.false_eq_true, if_false]
  by_cases hzero : (0 : BitVec f.bits) = y
  · rw [if_pos hzero, writeOut, RegisterFile.setIntReg_narrow, isaRemU, if_pos hzero.symm]
    rfl
  · rw [if_neg hzero, unsignedRem_of_ne (Ne.symm hzero), writeOut,
      RegisterFile.setIntReg_narrow, isaRemU, if_neg (Ne.symm hzero), umod_eq_ofNat]
    rfl

theorem modulo_signed_iff {w : Nat} {x y : BitVec w} :
    (if y = 0 then x = isaRem x y else signedRem P x y = some (isaRem x y)) ↔
      (y ≠ 0 → x.sdivOverflow y → P.undefined .remainder w x y = some (isaRem x y)) := by
  split
  · rename_i hzero
    rw [isaRem, if_pos hzero]
    exact iff_of_true rfl fun hne => absurd hzero hne
  · rename_i hne
    rw [signedRem_iff hne]
    exact (imp_iff_right hne).symm

theorem shiftImm64_eq {shift : BitVec 64 → Nat → BitVec 64}
    {partialShift : BitVec 64 → BitVec 64 → Option (BitVec 64)} {x : BitVec 64}
    {shift_by : BitVec 6}
    (hdefined : ∀ x c : BitVec 64, c.toNat < 64 → partialShift x c = some (shift x c.toNat)) :
    writeOut regFile phys (partialShift x (shift_by.setWidth 64)) true =
      .ok ⟨regFile.setIntReg phys.out_0 (shift x shift_by.toNat) true, false⟩ := by
  have hcount : (shift_by.setWidth 64).toNat = shift_by.toNat := by
    rw [toNat_setWidth, mod_eq_of_lt (shift_by.isLt.trans (by decide))]
  rw [hdefined _ _ (hcount ▸ shift_by.isLt), hcount, writeOut]

theorem shiftImm32_eq {x count : BitVec 32} {rs2 : BitVec 5}
    (hdefined : ∀ x c : BitVec 32, c.toNat < 32 → partialShift x c = some (shift x c.toNat))
    (hcount : count.toNat = rs2.toNat) :
    writeOut regFile phys (partialShift x count) true =
      .ok ⟨regFile.setIntReg phys.out_0 (sext (shift x rs2.toNat)) true, false⟩ := by
  rw [hdefined _ _ (hcount ▸ rs2.isLt), hcount, writeOut, RegisterFile.setIntReg_narrow, if_pos rfl]
  rfl

theorem setWidth_eq_zero_iff {v w : Nat} {x : BitVec v} (h : v ≤ w) : x.setWidth w = 0 ↔ x = 0 := by
  rw [← toNat_inj, ← toNat_inj, toNat_setWidth,
    mod_eq_of_lt (x.isLt.trans_le (Nat.pow_le_pow_right (by decide) h))]
  simp

theorem ite_zero_iff {v w : Nat} {amount : BitVec v} {value wanted : Except Fault (Executed count)}
    {other : Except Fault (Executed count)} (hw : v ≤ w) (hother : other ≠ wanted)
    (hvalue : value = wanted) :
    (if amount.setWidth w = 0 then other else value) = wanted ↔ amount ≠ 0 := by
  have hiff := @setWidth_eq_zero_iff v w amount hw
  split
  · rename_i hzero
    exact iff_of_false hother fun hne => hne (hiff.mp hzero)
  · rename_i hne
    exact iff_of_true hvalue fun hzero => hne (hiff.mpr hzero)

theorem pos_setWidth_iff {v : Nat} {x : BitVec v} (h : v < 64) :
    0 < (x.setWidth 64).toInt ↔ ¬ x.setWidth 64 = 0 := by
  have hle : (2 : Nat) ^ v ≤ 2 ^ 63 := Nat.pow_le_pow_right (by decide) (by omega)
  have hlt : x.toNat < 2 ^ 63 := x.isLt.trans_le hle
  have hnat : (x.setWidth 64).toNat = x.toNat := by
    rw [toNat_setWidth, mod_eq_of_lt (hlt.trans (by decide))]
  rw [setWidth_eq_zero_iff (le_of_lt h), ← toNat_inj, toInt_eq_toNat_of_lt (by omega), hnat]
  simp
  omega

/--
An instruction computes the value of the instruction set exactly for the
operands that fit it.
-/
theorem computes_iff (P : Platform) {count : Nat} (regFile : RegisterFile count)
    (phys : PhysRegs count) (op : Op)
    (hout : phys.out_0.val ≠ regFile.register_ignore_writes) :
    Computes P regFile phys op ↔
      op.Fits P (regFile.getIntReg phys.in_0 64) (regFile.getIntReg phys.in_1 64) := by
  have hx := @getIntReg_low count regFile phys.in_0
  have hy := @getIntReg_low count regFile phys.in_1
  have hself : ∀ x : BitVec 64, x.setWidth 64 = x := fun x => setWidth_eq x
  have hsext : ∀ x : BitVec 64, x.signExtend 64 = x := fun x => signExtend_eq x
  cases op with
  | MUL => exact (writeOut64_iff hout).trans signedMul_iff
  | MULHU => exact iff_of_true multiplyHigh_computes trivial
  | DIV =>
    have hiff := @divide_iff count P regFile phys .int64 _ _
      (isaDiv (regFile.getIntReg phys.in_0 64) (regFile.getIntReg phys.in_1 64)) rfl rfl hout
    simp only [GprFormat.bits, hsext] at hiff
    exact hiff.trans (and_congr_right (fun hne => signedDiv_iff hne))
  | MULW =>
    simp only [Computes, Op.execute, VanadisMultiplyInstruction.execute, GprFormat.bits,
      GprFormat.isSigned, if_true, hx, hy]
    exact (writeOut_iff (by decide) hout).trans signedMul_iff
  | DIVU =>
    have hiff := @divide_iff count P regFile phys .uint64 _ _
      (isaDivU (regFile.getIntReg phys.in_0 64) (regFile.getIntReg phys.in_1 64))
      rfl rfl hout
    simp only [GprFormat.bits, hsext] at hiff
    exact hiff.trans (and_iff_left_of_imp unsignedDiv_eq)
  | DIVW =>
    have hiff := @divide_iff count P regFile phys .int32 _ _
      (isaDiv (low (regFile.getIntReg phys.in_0 64)) (low (regFile.getIntReg phys.in_1 64)))
      hx hy hout
    exact hiff.trans (and_congr_right (fun hne => signedDiv_iff hne))
  | DIVUW =>
    have hiff := @divide_iff count P regFile phys .uint32 _ _
      (isaDivU (low (regFile.getIntReg phys.in_0 64)) (low (regFile.getIntReg phys.in_1 64)))
      hx hy hout
    exact hiff.trans (and_iff_left_of_imp unsignedDiv_eq)
  | REM =>
    have hiff := @modulo_iff count P regFile phys .int64 _ _
      (isaRem (regFile.getIntReg phys.in_0 64) (regFile.getIntReg phys.in_1 64))
      (hself _) (hself _) rfl hout
    simp only [GprFormat.bits, hsext] at hiff
    exact hiff.trans modulo_signed_iff
  | REMW =>
    have hiff := @modulo_iff count P regFile phys .int32 _ _
      (isaRem (low (regFile.getIntReg phys.in_0 64)) (low (regFile.getIntReg phys.in_1 64)))
      rfl rfl rfl hout
    exact hiff.trans modulo_signed_iff
  | REMU =>
    have heq := @moduloU_eq count P regFile phys .uint64 _ _ (hself _) (hself _) rfl
    exact iff_of_true heq trivial
  | REMUW =>
    have heq := @moduloU_eq count P regFile phys .uint32 _ _ rfl rfl rfl
    refine Iff.trans ?_ low_isaRemU_msb
    refine Iff.trans (Eq.congr_left heq) ⟨fun h => ?_, fun h => ?_⟩
    · exact (RegisterFile.setIntReg_inj hout (congrArg Executed.regFile (Except.ok.inj h))).symm
    · rw [Op.isaValue, h]
      rfl
  | SLL =>
    simp only [Computes, Op.execute, VanadisShiftLeftLogicalInstruction.execute, hx]
    exact shift64_iff (fun _ _ => rfl) (fun x => BitVec.shiftLeft_zero x) hout
  | SRL =>
    simp only [Computes, Op.execute, VanadisShiftRightLogicalInstruction.execute, hx]
    exact shift64_iff (fun _ _ => rfl) (fun x => ushiftRight_zero x) hout
  | SRA =>
    simp only [Computes, Op.execute, VanadisShiftRightArithmeticInstruction.execute, hx]
    exact shift64_iff (fun _ _ => rfl) (fun x => sshiftRight_zero) hout
  | SLLW =>
    refine iff_of_true ?_ trivial
    simp only [Computes, Op.execute, VanadisShiftLeftLogicalInstruction.execute, hx, hy]
    exact shift32_eq (fun _ _ h => shiftLeft_of_lt h) (fun x => BitVec.shiftLeft_zero x) hout
  | SRLW =>
    refine iff_of_true ?_ trivial
    simp only [Computes, Op.execute, VanadisShiftRightLogicalInstruction.execute, hx, hy]
    exact shift32_eq (fun _ _ h => shiftRight_of_lt h)
      (fun x => ushiftRight_zero x) hout
  | SRAW =>
    refine iff_of_true ?_ trivial
    simp only [Computes, Op.execute, VanadisShiftRightArithmeticInstruction.execute, hx, hy]
    exact shift32_eq (fun _ _ h => arithmeticShiftRight_of_lt h)
      (fun x => sshiftRight_zero) hout
  | SLLI shift_by =>
    exact ite_zero_iff (by decide) (by simp)
      (shiftImm64_eq (fun _ _ h => shiftLeft_of_lt h))
  | SRLI shift_by =>
    exact ite_zero_iff (by decide) (by simp)
      (shiftImm64_eq (fun _ _ h => shiftRight_of_lt h))
  | SRAI shift_by =>
    simp only [Computes, Op.execute, VanadisShiftRightArithmeticImmInstruction.execute,
      pos_setWidth_iff (show 6 < 64 by decide), ite_not]
    exact ite_zero_iff (by decide) (by simp [flagError])
      (shiftImm64_eq (fun _ _ h => arithmeticShiftRight_of_lt h))
  | SLLIW rs2 =>
    simp only [Computes, Op.execute, VanadisShiftLeftLogicalImmInstruction.execute,
      GprFormat.bits, hx]
    exact ite_zero_iff (by decide) (by simp)
      (shiftImm32_eq (fun _ _ h => shiftLeft_of_lt h) (by simp; omega))
  | SRLIW rs2 =>
    simp only [Computes, Op.execute, VanadisShiftRightLogicalImmInstruction.execute, hx]
    exact ite_zero_iff (by decide) (by simp)
      (shiftImm32_eq (fun _ _ h => shiftRight_of_lt h) (by simp; omega))
  | SRAIW rs2 =>
    simp only [Computes, Op.execute, VanadisShiftRightArithmeticImmInstruction.execute,
      pos_setWidth_iff (show 5 < 64 by decide), ite_not, hx]
    exact ite_zero_iff (by decide) (by simp [flagError])
      (shiftImm32_eq (fun _ _ h => arithmeticShiftRight_of_lt h) (by simp; omega))

/-- An unsigned division of registers 1 and 2 of four registers into register 3. -/
theorem computes_iff_divu :
    Computes ⟨fun _ _ _ _ => none⟩
      (⟨0, fun reg => if reg.val = 1 then 7 else 2⟩ : RegisterFile 4) ⟨1, 2, 3⟩ .DIVU :=
  (computes_iff ⟨fun _ _ _ _ => none⟩
    (⟨0, fun reg => if reg.val = 1 then 7 else 2⟩ : RegisterFile 4) ⟨1, 2, 3⟩ .DIVU
    (by decide)).mpr (by unfold Op.Fits; decide +kernel)

/-- A division by zero flags an error and writes nothing. -/
theorem not_computes_div_zero :
    ¬ Computes ⟨fun _ _ _ _ => none⟩
      (⟨0, fun reg => if reg.val = 1 then 7 else 0⟩ : RegisterFile 4) ⟨1, 2, 3⟩ .DIV := by
  intro h
  have herror : true = false := congrArg Executed.trapError (Except.ok.inj h)
  exact Bool.noConfusion herror

end Main

end Operations

end SstElements.Vanadis
