import Mathlib.Algebra.Group.Nat.Defs
import Mathlib.Data.List.Basic
/-!
# LibWord — words as bytes and as halves

A word of `w` bits is read and written a byte at a time (`byteAt`, `putByte`), and written under a strobe, one bit for
each byte (`putStrobe`, `bits`).  A word of 64 bits has two halves (`lo`, `hi`, `join`).  Two words of `n` bytes are the
same when their bytes are (`eq_of_byteAt`).
-/
namespace Vip
namespace Word

variable {w : Nat}

/-! ## Bytes -/

def byteAt (v : BitVec w) (k : Nat) : BitVec 8 := v.extractLsb' (8 * k) 8

/-- `v[8*k +: 8] = b`. -/
def putByte (v : BitVec w) (k : Nat) (b : BitVec 8) : BitVec w :=
  (v &&& ~~~((0xff#8).setWidth w <<< (8 * k))) ||| (b.setWidth w <<< (8 * k))

theorem getLsbD_putByte (v : BitVec w) (k : Nat) (b : BitVec 8) (i : Nat) (hi : i < w) :
    (putByte v k b).getLsbD i = if i / 8 = k then b.getLsbD (i % 8) else v.getLsbD i := by
  have hmask : (0xff#8).getLsbD (i - 8 * k) = decide (i - 8 * k < 8) := by
    change (BitVec.allOnes 8).getLsbD (i - 8 * k) = _
    exact BitVec.getLsbD_allOnes
  simp only [putByte, BitVec.getLsbD_or, BitVec.getLsbD_and, BitVec.getLsbD_not, BitVec.getLsbD_shiftLeft,
    BitVec.getLsbD_setWidth, hmask, hi, decide_true, Bool.true_and]
  by_cases hk : i / 8 = k
  · have hle : ¬ i < 8 * k := by omega
    have hlt : i - 8 * k < 8 := by omega
    have hw : i - 8 * k < w := by omega
    have hmod : i % 8 = i - 8 * k := by omega
    simp [hk, hle, hlt, hw, hmod]
  · by_cases hle : i < 8 * k
    · simp [hk, hle]
    · have hge : ¬ i - 8 * k < 8 := by omega
      have hb : b.getLsbD (i - 8 * k) = false := BitVec.getLsbD_of_ge _ _ (by omega)
      simp [hk, hle, hge, hb]

theorem byteAt_putByte (v : BitVec w) {k : Nat} (b : BitVec 8) (j : Nat) (hk : 8 * k + 8 ≤ w) :
    byteAt (putByte v k b) j = if j = k then b else byteAt v j := by
  apply BitVec.eq_of_getLsbD_eq
  intro i hi
  have hdiv : (8 * j + i) / 8 = j := by omega
  have hmod : (8 * j + i) % 8 = i := by omega
  simp only [byteAt, BitVec.getLsbD_extractLsb', hi, decide_true, Bool.true_and]
  by_cases hj : j = k
  · subst hj
    rw [getLsbD_putByte _ _ _ _ (by omega), hdiv, hmod, if_pos rfl, if_pos rfl]
  · rw [if_neg hj, BitVec.getLsbD_extractLsb']
    simp only [hi, decide_true, Bool.true_and]
    by_cases hw : 8 * j + i < w
    · rw [getLsbD_putByte _ _ _ _ hw, hdiv, if_neg hj]
    · rw [BitVec.getLsbD_of_ge _ _ (by omega), BitVec.getLsbD_of_ge _ _ (by omega)]

/-- **Words with the same bytes are the same.** -/
theorem eq_of_byteAt {n : Nat} {u v : BitVec w} (hw : w = 8 * n) (h : ∀ k < n, byteAt u k = byteAt v k) : u = v := by
  apply BitVec.eq_of_getLsbD_eq
  intro i hi
  have hbit := congrArg (fun b => b.getLsbD (i % 8)) (h (i / 8) (by omega))
  simp only [byteAt, BitVec.getLsbD_extractLsb', Nat.mod_lt i (by decide : 0 < 8), decide_true, Bool.true_and] at hbit
  rwa [show 8 * (i / 8) + i % 8 = i by omega] at hbit

theorem toNat_byteAt (v : BitVec w) (k : Nat) : (byteAt v k).toNat = v.toNat / 256 ^ k % 256 := by
  rw [byteAt, BitVec.extractLsb'_toNat, Nat.shiftRight_eq_div_pow, Nat.pow_mul]

theorem byteAt_or_shiftLeft (v : BitVec 64) (b : BitVec 8) {k j : Nat} (hk : k < 8) (hj : j < 8) :
    byteAt (v ||| (b.setWidth 64 <<< (8 * j))) k = byteAt v k ||| (if k = j then b else 0#8) := by
  apply BitVec.eq_of_getLsbD_eq
  intro i hi
  have h1 : 8 * k + i < 64 := by omega
  simp only [byteAt, BitVec.getLsbD_extractLsb', BitVec.getLsbD_or, BitVec.getLsbD_shiftLeft, BitVec.getLsbD_setWidth,
    hi, h1, decide_true, Bool.true_and]
  congr 1
  by_cases hkj : k = j
  · subst hkj
    have h2 : ¬ 8 * k + i < 8 * k := by omega
    simp [h2, show i < 64 by omega]
  · rw [if_neg hkj]
    by_cases hlt : k < j
    · have h2 : 8 * k + i < 8 * j := by omega
      simp [h2]
    · have h2 : 8 ≤ 8 * k + i - 8 * j := by omega
      simp [BitVec.getLsbD_of_ge b _ h2]

/-! ## Strobes -/

/-- The bytes of `new` whose strobe is set, over `old`. -/
def putStrobe (old new : BitVec w) (strb : Nat → Bool) : Nat → BitVec w
  | 0     => old
  | n + 1 => if strb n then putByte (putStrobe old new strb n) n (byteAt new n) else putStrobe old new strb n

theorem byteAt_putStrobe (old new : BitVec w) (strb : Nat → Bool) (j : Nat) : ∀ {n : Nat}, 8 * n ≤ w →
    byteAt (putStrobe old new strb n) j = if j < n ∧ strb j = true then byteAt new j else byteAt old j
  | 0, _     => by simp [putStrobe]
  | n + 1, h => by
    have ih := byteAt_putStrobe old new strb j (n := n) (by omega)
    rw [putStrobe]
    by_cases hs : strb n = true
    · rw [if_pos hs, byteAt_putByte _ _ _ (by omega), ih]
      by_cases hj : j = n
      · subst hj
        simp [hs]
      · have : j < n + 1 ↔ j < n := by omega
        simp [hj, this]
    · rw [if_neg hs, ih]
      by_cases hj : j = n
      · subst hj
        simp [hs]
      · have : j < n + 1 ↔ j < n := by omega
        simp [this]

/-- The word whose bit `i`, for `i < n`, is `p i`. -/
def bits (p : Nat → Bool) : Nat → BitVec w
  | 0     => 0
  | n + 1 => if p n then bits p n ||| (BitVec.twoPow w n) else bits p n

theorem getLsbD_bits (p : Nat → Bool) {k : Nat} (hk : k < w) : ∀ n : Nat,
    (bits p n : BitVec w).getLsbD k = (decide (k < n) && p k)
  | 0     => by simp [bits]
  | n + 1 => by
    have ih := getLsbD_bits p hk n
    rw [bits]
    by_cases hkn : k = n
    · subst hkn
      by_cases hp : p k = true
      · simp [hp, hk]
      · simp [hp, ih]
    · have hlt : k < n + 1 ↔ k < n := by omega
      have hne : ¬ n = k := fun h => hkn h.symm
      split
      · simp [ih, hlt, hne]
      · simp [ih, hlt]

/-! ## Halves -/

def lo (v : BitVec 64) : BitVec 32 := v.extractLsb' 0 32

def hi (v : BitVec 64) : BitVec 32 := v.extractLsb' 32 32

def join (h l : BitVec 32) : BitVec 64 := h ++ l

theorem getLsbD_join (h l : BitVec 32) (i : Nat) :
    (join h l).getLsbD i = if i < 32 then l.getLsbD i else h.getLsbD (i - 32) := by
  rw [join, BitVec.getLsbD_append]

@[simp] theorem lo_join (h l : BitVec 32) : lo (join h l) = l := by
  apply BitVec.eq_of_getLsbD_eq
  intro i hi
  simp [lo, getLsbD_join, hi]

@[simp] theorem hi_join (h l : BitVec 32) : hi (join h l) = h := by
  apply BitVec.eq_of_getLsbD_eq
  intro i hi
  simp [Word.hi, getLsbD_join, hi]

@[simp] theorem join_hi_lo (v : BitVec 64) : join (hi v) (lo v) = v := by
  apply BitVec.eq_of_getLsbD_eq
  intro i hi
  rw [getLsbD_join]
  by_cases h : i < 32
  · simp [lo, h]
  · have : i - 32 < 32 := by omega
    have hadd : 32 + (i - 32) = i := by omega
    simp [Word.hi, h, this, hadd]

theorem byteAt_lo (v : BitVec 64) {k : Nat} (hk : k < 4) : byteAt (lo v) k = byteAt v k := by
  apply BitVec.eq_of_getLsbD_eq
  intro i hi
  have : 8 * k + i < 32 := by omega
  simp [byteAt, lo, hi, this]

theorem byteAt_hi (v : BitVec 64) {k : Nat} (hk : k < 4) : byteAt (hi v) k = byteAt v (4 + k) := by
  apply BitVec.eq_of_getLsbD_eq
  intro i hi
  have h1 : 8 * k + i < 32 := by omega
  have h2 : 32 + (8 * k + i) = 8 * (4 + k) + i := by omega
  simp [byteAt, Word.hi, hi, h1, h2]

/-! ## Halves by masks -/

theorem hi_mask : (0xffffffff00000000#64) = join (BitVec.allOnes 32) 0 := by decide

theorem lo_mask : (0xffffffff#64) = join 0 (BitVec.allOnes 32) := by decide

theorem and_hi_or {x y : BitVec 64} (hy : hi y = 0) : (x &&& 0xffffffff00000000#64) ||| y = join (hi x) (lo y) := by
  conv => lhs; rw [← join_hi_lo x, ← join_hi_lo y, hy, hi_mask]
  apply BitVec.eq_of_getLsbD_eq
  intro i hi
  simp only [BitVec.getLsbD_or, BitVec.getLsbD_and, getLsbD_join, BitVec.getLsbD_allOnes]
  by_cases h : i < 32
  · simp [h]
  · have : i - 32 < 32 := by omega
    simp [h, this]

theorem and_lo_or (x y : BitVec 64) : (x &&& 0xffffffff#64) ||| (y <<< 32) = join (lo y) (lo x) := by
  conv => lhs; rw [← join_hi_lo x, lo_mask]
  apply BitVec.eq_of_getLsbD_eq
  intro i hi
  simp only [BitVec.getLsbD_or, BitVec.getLsbD_and, BitVec.getLsbD_shiftLeft, getLsbD_join, BitVec.getLsbD_allOnes, hi,
    decide_true, Bool.true_and]
  by_cases h : i < 32
  · simp [h]
  · have : i - 32 < 32 := by omega
    simp [h, this, lo]

theorem setWidth_eq_lo (v : BitVec 64) : v.setWidth 32 = lo v := by
  apply BitVec.eq_of_getLsbD_eq
  intro i hi
  simp [lo, hi]

end Word
end Vip
