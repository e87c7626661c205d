import Mathlib.Data.Int.Bitwise
import Mathlib.Data.Nat.Bitwise
import Mathlib.Tactic.Positivity
import Mathlib.Tactic.Zify
/-!
# LibField — numbers assembled from bit fields

A field is put into a word at a place (`putBits`) or or-ed into an unbounded integer (`orField`).  Where the bits below
the top of the field are still zero, or the number lies below the field, both add the field times its weight; so a word
that is assembled from fields that do not overlap is a sum, and its fields are read back by division and remainder.
-/
namespace Vip
namespace Fields

/-! ## Fields of words -/

section Words

variable {w n : Nat}

/-- `v[low +: n] = f`. -/
def putBits (v : BitVec w) (low : Nat) (f : BitVec n) : BitVec w :=
  (v &&& ~~~((BitVec.allOnes n).setWidth w <<< low)) ||| (f.setWidth w <<< low)

theorem toNat_append_add (x : BitVec w) (y : BitVec n) : (x ++ y).toNat = x.toNat * 2 ^ n + y.toNat := by
  rw [BitVec.toNat_append, ← Nat.shiftLeft_add_eq_or_of_lt y.isLt, Nat.shiftLeft_eq]

theorem or_eq_add_of_mod {a b m : Nat} (ha : a % 2 ^ m = 0) (hb : b < 2 ^ m) : a ||| b = a + b := by
  have hdiv : 2 ^ m * (a / 2 ^ m) = a := by
    have := Nat.div_add_mod a (2 ^ m)
    omega
  rw [← hdiv, Nat.two_pow_add_eq_or_of_lt hb]

theorem testBit_eq_false_of_mod {a m i : Nat} (ha : a % 2 ^ m = 0) (hi : i < m) : a.testBit i = false := by
  have hbit := Nat.testBit_mod_two_pow a m i
  rw [ha, Nat.zero_testBit, decide_eq_true hi, Bool.true_and] at hbit
  exact hbit.symm

/-- **A field above which nothing but zeros was put so far is added.** -/
theorem toNat_putBits {v : BitVec w} {a : Nat} (ha : v.toNat = a) (low : Nat) (f : BitVec n) (hw : low + n ≤ w)
    (hv : a % 2 ^ (low + n) = 0) : (putBits v low f).toNat = a + f.toNat * 2 ^ low := by
  subst ha
  have hclear : v &&& ~~~((BitVec.allOnes n).setWidth w <<< low) = v := by
    apply BitVec.eq_of_getLsbD_eq
    intro i hi
    rw [BitVec.getLsbD_and, BitVec.getLsbD_not, BitVec.getLsbD_shiftLeft, BitVec.getLsbD_setWidth,
      BitVec.getLsbD_allOnes]
    by_cases hlow : i < low + n
    · have hbit : v.getLsbD i = false := testBit_eq_false_of_mod hv hlow
      rw [hbit, Bool.false_and]
    · have hout : ¬ i - low < n := by omega
      simp [hi, hout]
  have hlt : f.toNat * 2 ^ low < 2 ^ (low + n) := by
    rw [Nat.pow_add, Nat.mul_comm (2 ^ low)]
    exact Nat.mul_lt_mul_of_pos_right f.isLt (Nat.two_pow_pos low)
  have hfit : (f.setWidth w <<< low).toNat = f.toNat * 2 ^ low := by
    have hf : f.toNat < 2 ^ w := Nat.lt_of_lt_of_le f.isLt (Nat.pow_le_pow_right (by decide) (by omega))
    rw [BitVec.toNat_shiftLeft, BitVec.toNat_setWidth, Nat.mod_eq_of_lt hf, Nat.shiftLeft_eq]
    exact Nat.mod_eq_of_lt (Nat.lt_of_lt_of_le hlt (Nat.pow_le_pow_right (by decide) hw))
  rw [putBits, hclear, BitVec.toNat_or, hfit, or_eq_add_of_mod hv hlt]

end Words

/-! ## Fields of integers -/

theorem land_mask (x : Int) (n : Nat) : Int.land x (((1 : Int) <<< n) - 1) = x % 2 ^ n := by
  have hmask : ((1 : Int) <<< n) - 1 = ((2 ^ n - 1 : Nat) : Int) := by
    rw [Int.shiftLeft_eq, Int.one_mul, Nat.cast_sub Nat.one_le_two_pow]
    norm_cast
  rw [hmask]
  cases x with
  | ofNat m    =>
    change ((m &&& (2 ^ n - 1) : Nat) : Int) = (m : Int) % 2 ^ n
    rw [Nat.and_two_pow_sub_one_eq_mod]
    norm_cast
  | negSucc m  =>
    change ((Nat.ldiff (2 ^ n - 1) m : Nat) : Int) = _
    have hbits : Nat.ldiff (2 ^ n - 1) m = (~~~(BitVec.ofNat n m)).toNat := by
      apply Nat.eq_of_testBit_eq
      intro i
      rw [Nat.testBit_ldiff, Nat.testBit_two_pow_sub_one, BitVec.testBit_toNat, BitVec.getLsbD_not,
        BitVec.getLsbD_ofNat]
      cases decide (i < n) <;> simp
    rw [hbits, ← BitVec.ofInt_negSucc_eq_not_ofNat, BitVec.toNat_ofInt]
    have hne : ((2 ^ n : Nat) : Int) ≠ 0 := Int.natCast_ne_zero.2 (Nat.two_pow_pos n).ne'
    rw [Int.toNat_of_nonneg (Int.emod_nonneg _ hne)]
    norm_cast

/-- `value | ((field & mask) << low)`, with a mask of `n` bits. -/
def orField (value : Int) (low n : Nat) (field : Int) : Int :=
  Int.lor value (Int.land field (((1 : Int) <<< n) - 1) <<< low)

/-- **A field is added where there are only zeros, below the number or above it.** -/
theorem orField_eq {value : Int} {v : Nat} (ha : value = v) (low n : Nat) (field : Int)
    (hv : v % 2 ^ (low + n) = 0 ∨ v < 2 ^ low) :
    orField value low n field = ((v + (field % 2 ^ n).toNat * 2 ^ low : Nat) : Int) := by
  subst ha
  have hcast : Int.land field (((1 : Int) <<< n) - 1) <<< low = (((field % 2 ^ n).toNat * 2 ^ low : Nat) : Int) := by
    have hpos : (0 : Int) ≤ field % 2 ^ n := Int.emod_nonneg _ (by positivity)
    rw [land_mask, Int.shiftLeft_eq, Nat.cast_mul, Int.toNat_of_nonneg hpos]
    norm_cast
  rw [orField, hcast]
  change ((v ||| _ : Nat) : Int) = _
  congr 1
  rcases hv with hv | hv
  · refine or_eq_add_of_mod hv ?_
    have hlt : (field % 2 ^ n).toNat < 2 ^ n := by
      have := Int.emod_lt_of_pos field (show (0 : Int) < 2 ^ n by positivity)
      have hpos := Int.emod_nonneg field (show (2 : Int) ^ n ≠ 0 by positivity)
      zify
      rwa [Int.toNat_of_nonneg hpos]
    rw [Nat.pow_add, Nat.mul_comm (2 ^ low)]
    exact Nat.mul_lt_mul_of_pos_right hlt (Nat.two_pow_pos low)
  · rw [Nat.lor_comm, or_eq_add_of_mod (Nat.mul_mod_left _ _) hv, Nat.add_comm]

theorem land_lnot_shiftLeft {v low : Nat} (hv : v < 2 ^ low) (x : Nat) :
    Int.land v (Int.lnot ((x : Int) <<< low)) = v := by
  have hshift : (x : Int) <<< low = ((x * 2 ^ low : Nat) : Int) := by
    rw [Int.shiftLeft_eq]
    norm_cast
  rw [hshift]
  change ((Nat.ldiff v (x * 2 ^ low) : Nat) : Int) = v
  congr 1
  apply Nat.eq_of_testBit_eq
  intro i
  rw [Nat.testBit_ldiff]
  by_cases hi : i < low
  · rw [testBit_eq_false_of_mod (Nat.mul_mod_left x (2 ^ low)) hi, Bool.not_false, Bool.and_true]
  · have hle : 2 ^ low ≤ 2 ^ i := Nat.pow_le_pow_right (by decide) (by omega)
    rw [Nat.testBit_lt_two_pow (Nat.lt_of_lt_of_le hv hle), Bool.false_and]

theorem land_shiftRight (v low : Nat) {mask : Int} {n : Nat} (hm : mask = ((1 : Int) <<< n) - 1) :
    Int.land ((v : Int) >>> low) mask = ((v / 2 ^ low % 2 ^ n : Nat) : Int) := by
  rw [hm, land_mask, Int.shiftRight_eq_div_pow]
  norm_cast

end Fields
end Vip
