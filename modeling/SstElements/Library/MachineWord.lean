import Mathlib.Tactic

/-!
# Machine words

The words of the programs are `UInt64` and `UInt32`.  Mathlib has no linear
order on them, so the order of the core library is packaged here; the other
lemmas move comparisons and wrapping sums to natural numbers.

Some operations on integers of a fixed width have no meaning in the language a
program is written in.  What the compiled program does with them is a parameter:
it traps or it has a value.
-/

namespace SstElements.Library

section Words

open Nat

instance instLinearOrderUInt64 : LinearOrder UInt64 where
  le_refl := UInt64.le_refl
  le_trans := fun _ _ _ => UInt64.le_trans
  lt_iff_le_not_ge := by
    intro a b
    simp only [UInt64.lt_iff_toNat_lt, UInt64.le_iff_toNat_le]
    omega
  le_antisymm := fun _ _ => UInt64.le_antisymm
  le_total := UInt64.le_total
  toDecidableLE := inferInstance
  toDecidableLT := inferInstance
  toDecidableEq := inferInstance

instance instLinearOrderUInt32 : LinearOrder UInt32 where
  le_refl := UInt32.le_refl
  le_trans := fun _ _ _ => UInt32.le_trans
  lt_iff_le_not_ge := by
    intro a b
    simp only [UInt32.lt_iff_toNat_lt, UInt32.le_iff_toNat_le]
    omega
  le_antisymm := fun _ _ => UInt32.le_antisymm
  le_total := UInt32.le_total
  toDecidableLE := inferInstance
  toDecidableLT := inferInstance
  toDecidableEq := inferInstance

theorem toNat_lt_size (a : UInt64) : a.toNat < 2 ^ 64 :=
  UInt64.toNat_lt a

theorem toNat_add_of_lt {a b : UInt64} (h : a.toNat + b.toNat < 2 ^ 64) :
    (a + b).toNat = a.toNat + b.toNat := by
  rw [UInt64.toNat_add, mod_eq_of_lt h]

theorem toNat_mul_of_lt {a b : UInt64} (h : a.toNat * b.toNat < 2 ^ 64) :
    (a * b).toNat = a.toNat * b.toNat := by
  rw [UInt64.toNat_mul, mod_eq_of_lt h]

theorem toNat_shiftRight_ofNat {k : Nat} (hk : k < 64) (a : UInt64) :
    (a >>> UInt64.ofNat k).toNat = a.toNat / 2 ^ k := by
  rw [UInt64.toNat_shiftRight, UInt64.toNat_ofNat',
    mod_eq_of_lt (show k < 2 ^ 64 by omega), mod_eq_of_lt hk, shiftRight_eq_div_pow]

theorem toNat_shiftLeft_ofNat {k : Nat} {a : UInt64} (hk : k < 64) (h : a.toNat * 2 ^ k < 2 ^ 64) :
    (a <<< UInt64.ofNat k).toNat = a.toNat * 2 ^ k := by
  rw [UInt64.toNat_shiftLeft, UInt64.toNat_ofNat',
    mod_eq_of_lt (show k < 2 ^ 64 by omega), mod_eq_of_lt hk, Nat.shiftLeft_eq, mod_eq_of_lt h]

theorem toNat_eq_zero_iff (a : UInt64) : a.toNat = 0 ↔ a = 0 := by
  rw [← UInt64.toNat_inj]
  rfl

end Words

namespace MachineArithmetic

open BitVec

/-- The operations that are not defined for all operands. -/
inductive PartialOp where
  | product
  | quotient
  | remainder
  | shiftLeft
  | shiftRight
  | arithmeticShiftRight
  deriving DecidableEq, Repr

/-- What is computed for operands without a defined value; `none` is a trap. -/
structure Platform where undefined : PartialOp → (w : Nat) → BitVec w → BitVec w → Option (BitVec w)

variable (P : Platform) {w : Nat}

def signedMul (x y : BitVec w) : Option (BitVec w) :=
  if x.smulOverflow y then P.undefined .product w x y else some (x * y)

/-- The quotient of signed numbers, cut towards zero. -/
def signedDiv (x y : BitVec w) : Option (BitVec w) :=
  if y = 0 ∨ x.sdivOverflow y then P.undefined .quotient w x y else some (x.sdiv y)

/-- The remainder that goes with the quotient. -/
def signedRem (x y : BitVec w) : Option (BitVec w) :=
  if y = 0 ∨ x.sdivOverflow y then P.undefined .remainder w x y else some (x.srem y)

def unsignedDiv (x y : BitVec w) : Option (BitVec w) :=
  if y = 0 then P.undefined .quotient w x y else some (x.udiv y)

def unsignedRem (x y : BitVec w) : Option (BitVec w) :=
  if y = 0 then P.undefined .remainder w x y else some (x.umod y)

/-- The shifts are defined for counts less than the width. -/
def shiftLeft (x count : BitVec w) : Option (BitVec w) :=
  if count.toNat < w then some (x <<< count.toNat)
  else P.undefined .shiftLeft w x count

def shiftRight (x count : BitVec w) : Option (BitVec w) :=
  if count.toNat < w then some (x >>> count.toNat)
  else P.undefined .shiftRight w x count

def arithmeticShiftRight (x count : BitVec w) : Option (BitVec w) :=
  if count.toNat < w then some (x.sshiftRight count.toNat)
  else P.undefined .arithmeticShiftRight w x count

section Lemmas

variable {P} {x y count : BitVec w}

@[simp]
theorem unsignedDiv_of_ne (h : y ≠ 0) : unsignedDiv P x y = some (x.udiv y) :=
  if_neg h

@[simp]
theorem unsignedRem_of_ne (h : y ≠ 0) : unsignedRem P x y = some (x.umod y) :=
  if_neg h

theorem shiftLeft_of_lt (h : count.toNat < w) : shiftLeft P x count = some (x <<< count.toNat) :=
  if_pos h

theorem shiftRight_of_lt (h : count.toNat < w) : shiftRight P x count = some (x >>> count.toNat) :=
  if_pos h

theorem arithmeticShiftRight_of_lt (h : count.toNat < w) :
    arithmeticShiftRight P x count = some (x.sshiftRight count.toNat) :=
  if_pos h

theorem ite_undefined_eq_some_iff
    {defined : Prop} [Decidable defined] {u : Option (BitVec w)} {v z : BitVec w} :
    (if defined then u else some v) = some z ↔ (defined → u = some z) ∧ (¬ defined → v = z) := by
  split
  · rename_i h
    exact ⟨fun heq => ⟨fun _ => heq, fun hn => absurd h hn⟩, fun hand => hand.1 h⟩
  · rename_i h
    exact ⟨fun heq => ⟨fun hp => absurd hp h, fun _ => Option.some.inj heq⟩,
      fun hand => congrArg some (hand.2 h)⟩

theorem setWidth_signExtend {v : Nat} (h : w ≤ v) (x : BitVec w) :
    (x.signExtend v).setWidth w = x := by
  ext i hi
  have hv : i < v := hi.trans_le h
  simp [hv, getElem_signExtend, hi]

theorem signExtend_inj {v : Nat} (h : w ≤ v) {x y : BitVec w}
    (heq : x.signExtend v = y.signExtend v) :
    x = y := by
  rw [← setWidth_signExtend h x, heq, setWidth_signExtend h]

theorem sdiv_eq_ofInt (x y : BitVec w) : x.sdiv y = BitVec.ofInt w (x.toInt.tdiv y.toInt) := by
  apply eq_of_toInt_eq
  rw [toInt_sdiv, toInt_ofInt]

theorem srem_eq_ofInt (x y : BitVec w) : x.srem y = BitVec.ofInt w (x.toInt.tmod y.toInt) := by
  rw [← toInt_srem, ofInt_toInt]

theorem udiv_eq_ofNat (x y : BitVec w) : x.udiv y = BitVec.ofNat w (x.toNat / y.toNat) := by
  apply eq_of_toNat_eq
  rw [BitVec.toNat_ofNat, Nat.mod_eq_of_lt ((Nat.div_le_self _ _).trans_lt x.isLt)]
  exact toNat_udiv

theorem umod_eq_ofNat (x y : BitVec w) : x.umod y = BitVec.ofNat w (x.toNat % y.toNat) := by
  apply eq_of_toNat_eq
  rw [BitVec.toNat_ofNat, Nat.mod_eq_of_lt ((Nat.mod_le _ _).trans_lt x.isLt)]
  exact toNat_umod

theorem mul_eq_ofInt (x y : BitVec w) : x * y = BitVec.ofInt w (x.toInt * y.toInt) := by
  rw [BitVec.ofInt_mul, ofInt_toInt, ofInt_toInt]

end Lemmas

end MachineArithmetic

end SstElements.Library
