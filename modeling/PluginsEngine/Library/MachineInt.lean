/-
  File:      PluginsEngine/Library/MachineInt.lean
  Subject:   MACHINE INTEGERS AND EXACT OPERATIONS. Names nothing of the repository.

  A machine integer type has the integers of an interval. An operation is EXACT where its result
  over the integers is one of them; where it is not, the machine's result is another number, or
  there is none at all. Here it is `none` in both cases, so a computation that comes to a value
  met no overflow.

  * `MachineInt`, `represent` -- a type with its interval, and the value that stands for an integer;
  * `represent_eq_some_iff`, `exists_represent` -- which that is, and when there is one;
  * `addExact`, `mulExact` -- exact sums and products;
  * `toInt_div_of_nonneg`, `toInt_mod_of_nonneg` -- quotients of numbers that are not negative;
  * `toInt_widen`, `toNat_toUInt64`, `toInt_toInt64` -- the conversions between the types.
-/
import Mathlib.Algebra.Ring.Int.Defs
import Mathlib.Algebra.Ring.Nat

namespace PluginsEngine.Library

/-! ## 1. Types and their intervals -/

/-- A type whose values stand for the integers from `least` to `greatest`. -/
class MachineInt (ι : Type) where
  toInt : ι → Int
  ofInt : Int → ι
  least : Int
  greatest : Int
  toInt_ofInt : ∀ x, least ≤ x → x ≤ greatest → toInt (ofInt x) = x
  bounds : ∀ a, least ≤ toInt a ∧ toInt a ≤ greatest
  toInt_injective : ∀ a b, toInt a = toInt b → a = b

instance : MachineInt Int64 where
  toInt := Int64.toInt
  ofInt := Int64.ofInt
  least := -2 ^ 63
  greatest := 2 ^ 63 - 1
  toInt_ofInt x hle hge := Int64.toInt_ofInt_of_le hle (by omega)
  bounds a := ⟨a.le_toInt, by have := a.toInt_lt; omega⟩
  toInt_injective _ _ h := Int64.toInt_inj.mp h

instance : MachineInt UInt32 where
  toInt a := a.toNat
  ofInt := UInt32.ofInt
  least := 0
  greatest := 2 ^ 32 - 1
  toInt_ofInt x hle hge := by
    rw [UInt32.ofInt, UInt32.toNat_ofNat']
    omega
  bounds a := by
    have := a.toNat_lt
    omega
  toInt_injective a b h := UInt32.toNat_inj.mp (by omega)

theorem toInt_uint32 (a : UInt32) : MachineInt.toInt a = a.toNat := rfl

/-! ## 2. Exact operations -/

section

variable {ι : Type} [MachineInt ι] {a b c : ι} {x : Int}

/-- The value that stands for `x`. -/
def represent (x : Int) : Option ι :=
  if MachineInt.least ι ≤ x ∧ x ≤ MachineInt.greatest ι then some (MachineInt.ofInt x) else none

/-- **A value stands for one integer.** -/
theorem represent_eq_some_iff : represent x = some a ↔ MachineInt.toInt a = x := by
  unfold represent
  split
  · rename_i h
    have hof : MachineInt.toInt (MachineInt.ofInt x : ι) = x :=
      MachineInt.toInt_ofInt x h.1 h.2
    constructor
    · intro heq
      rw [← Option.some.inj heq, hof]
    · intro heq
      exact congrArg some (MachineInt.toInt_injective _ _ (hof.trans heq.symm))
  · rename_i h
    constructor
    · intro heq
      cases heq
    · intro heq
      exact absurd (heq ▸ MachineInt.bounds a) h

theorem exists_represent (hle : MachineInt.least ι ≤ x) (hge : x ≤ MachineInt.greatest ι) :
    ∃ a : ι, MachineInt.toInt a = x :=
  ⟨MachineInt.ofInt x, MachineInt.toInt_ofInt x hle hge⟩

theorem exists_int64 (hle : -2 ^ 63 ≤ x) (hlt : x < 2 ^ 63) : ∃ a : Int64, a.toInt = x :=
  @exists_represent Int64 _ x hle (Int.le_sub_one_of_lt hlt)

def addExact (a b : ι) : Option ι := represent (MachineInt.toInt a + MachineInt.toInt b)

def mulExact (a b : ι) : Option ι := represent (MachineInt.toInt a * MachineInt.toInt b)

theorem addExact_eq_some_iff :
    addExact a b = some c ↔ MachineInt.toInt c = MachineInt.toInt a + MachineInt.toInt b :=
  represent_eq_some_iff

theorem mulExact_eq_some_iff :
    mulExact a b = some c ↔ MachineInt.toInt c = MachineInt.toInt a * MachineInt.toInt b :=
  represent_eq_some_iff

end

theorem addExact_int64 {a b c : Int64} :
    addExact a b = some c ↔ c.toInt = a.toInt + b.toInt := addExact_eq_some_iff

theorem mulExact_int64 {a b c : Int64} :
    mulExact a b = some c ↔ c.toInt = a.toInt * b.toInt := mulExact_eq_some_iff

/-! ### Division by a constant -/

theorem toInt_div_of_nonneg {a d : Int64} (hd : d ≠ -1) (ha : 0 ≤ a.toInt) :
    (a / d).toInt = a.toInt / d.toInt := by
  rw [Int64.toInt_div_of_ne_right a d hd, Int.tdiv_eq_ediv_of_nonneg ha]

theorem toInt_mod_of_nonneg {a d : Int64} (ha : 0 ≤ a.toInt) :
    (a % d).toInt = a.toInt % d.toInt := by
  rw [Int64.toInt_mod, Int.tmod_eq_emod_of_nonneg ha]

/-! ## 3. Conversions -/

/-- From 32 bits without a sign to 64 with one. -/
def widen (a : UInt32) : Int64 := Int64.ofNat a.toNat

@[simp] theorem toInt_widen (a : UInt32) : (widen a).toInt = a.toNat :=
  Int64.toInt_ofNat_of_lt (Nat.lt_trans a.toNat_lt (by decide))

/-- Without the sign a negative number is taken modulo 2^64. -/
theorem toNat_toUInt64 (a : Int64) : (a.toUInt64.toNat : Int) = a.toInt % 2 ^ 64 := by
  have hlt := a.toBitVec.isLt
  rw [← Int64.toNat_toBitVec, ← Int64.toInt_toBitVec, BitVec.toInt_eq_toNat_bmod, Int.bmod_def]
  omega

theorem toInt_toInt64 {a : UInt64} (h : a.toNat < 2 ^ 63) : a.toInt64.toInt = a.toNat := by
  have heq : a.toInt64 = Int64.ofNat a.toNat := by
    rw [← UInt64.toInt64_ofNat', UInt64.ofNat_toNat]
  rw [heq, Int64.toInt_ofNat_of_lt h]

end PluginsEngine.Library
