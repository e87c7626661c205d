import Mathlib.Data.List.Basic
import Mathlib.Data.Nat.Bitwise
/-!
# LibBytes — little-endian bytes and fixed layouts

A number spelled in `w` bytes, least significant first (`leBytes`, `leNat`), a layout of such fields one after another
(`pack`, `unpack`), and a write into the middle of a buffer (`overlay`).  A layout reads back what was packed
(`unpack_pack`) and packs back what was read (`pack_unpack`), so a codec that is shown equal to a layout is a bijection
on buffers of the layout's size.
-/
namespace Vip
namespace Bytes

/-- The `w` low bytes of `v`, least significant first. -/
def leBytes : Nat → Nat → List UInt8
  | 0, _     => []
  | w + 1, v => UInt8.ofNat v :: leBytes w (v / 256)

/-- The number spelled by bytes, least significant first. -/
def leNat : List UInt8 → Nat
  | []      => 0
  | b :: bs => b.toNat + 256 * leNat bs

@[simp] theorem length_leBytes : ∀ (w v : Nat), (leBytes w v).length = w
  | 0, _     => rfl
  | w + 1, v => by rw [leBytes, List.length_cons, length_leBytes w]

theorem leNat_lt : ∀ (bs : List UInt8), leNat bs < 256 ^ bs.length
  | []      => by simp [leNat]
  | b :: bs => by
    have hb := b.toNat_lt
    have hbs := leNat_lt bs
    rw [leNat, List.length_cons, Nat.pow_succ]
    omega

theorem leNat_leBytes : ∀ (w v : Nat), v < 256 ^ w → leNat (leBytes w v) = v
  | 0, v, h     => by simp at h; simp [leBytes, leNat, h]
  | w + 1, v, h => by
    have hq : v / 256 < 256 ^ w := by
      rw [Nat.div_lt_iff_lt_mul (by decide)]
      rwa [Nat.pow_succ] at h
    rw [leBytes, leNat, leNat_leBytes w _ hq, UInt8.toNat_ofNat']
    omega

theorem leBytes_leNat : ∀ (bs : List UInt8), leBytes bs.length (leNat bs) = bs
  | []      => rfl
  | b :: bs => by
    have hb := b.toNat_lt
    have hdiv : (b.toNat + 256 * leNat bs) / 256 = leNat bs := by omega
    have hmod : UInt8.ofNat (b.toNat + 256 * leNat bs) = b := by
      apply UInt8.toNat_inj.1
      rw [UInt8.toNat_ofNat']
      omega
    rw [List.length_cons, leNat, leBytes, hdiv, hmod, leBytes_leNat bs]

theorem leBytes_add : ∀ (a b v : Nat), leBytes (a + b) v = leBytes a v ++ leBytes b (v / 256 ^ a)
  | 0, b, v     => by simp [leBytes]
  | a + 1, b, v => by
    rw [Nat.succ_add, leBytes, leBytes, leBytes_add a b, Nat.div_div_eq_div_mul, Nat.pow_succ, Nat.mul_comm,
      List.cons_append]

theorem leBytes_mod : ∀ (w v : Nat), leBytes w (v % 256 ^ w) = leBytes w v
  | 0, _     => rfl
  | w + 1, v => by
    have hlow : UInt8.ofNat (v % 256 ^ (w + 1)) = UInt8.ofNat v := by
      apply UInt8.toNat_inj.1
      rw [UInt8.toNat_ofNat', UInt8.toNat_ofNat', Nat.mod_mod_of_dvd v ⟨256 ^ w, by rw [Nat.pow_succ, Nat.mul_comm]⟩]
    rw [leBytes, leBytes, hlow, Nat.pow_succ, Nat.mul_comm, Nat.mod_mul_right_div_self, leBytes_mod w]

theorem leBytes_eq_map : ∀ (n v : Nat), leBytes n v = (List.range n).map (fun i => UInt8.ofNat (v / 256 ^ i))
  | 0, _     => rfl
  | n + 1, v => by
    rw [leBytes, leBytes_eq_map n, List.range_succ_eq_map, List.map_cons, List.map_map, Nat.pow_zero, Nat.div_one]
    simp only [Function.comp_def, Nat.div_div_eq_div_mul, Nat.pow_succ, Nat.mul_comm]

theorem leNat_div_mod : ∀ (bs : List UInt8) (k : Nat), leNat bs / 256 ^ k % 256 = (bs.getD k 0).toNat
  | [], k          => by simp [leNat]
  | b :: bs, 0     => by
    have hb := b.toNat_lt
    rw [leNat, List.getD_cons_zero, Nat.pow_zero, Nat.div_one]
    omega
  | b :: bs, k + 1 => by
    have hb := b.toNat_lt
    have hdiv : (b.toNat + 256 * leNat bs) / 256 = leNat bs := by omega
    rw [leNat, List.getD_cons_succ, Nat.pow_succ, Nat.mul_comm (256 ^ k), ← Nat.div_div_eq_div_mul, hdiv,
      leNat_div_mod bs k]

theorem leNat_append : ∀ (as bs : List UInt8), leNat (as ++ bs) = leNat as + 256 ^ as.length * leNat bs
  | [], bs      => by simp [leNat]
  | a :: as, bs => by
    rw [List.cons_append, leNat, leNat, leNat_append as bs, List.length_cons, Nat.pow_succ, Nat.mul_add, Nat.add_assoc,
      Nat.mul_comm (256 ^ as.length) 256, Nat.mul_assoc]

/-! ## Layouts -/

/-- Fields of given widths, packed one after another. -/
def pack : List (Nat × Nat) → List UInt8
  | []      => []
  | f :: fs => leBytes f.1 f.2 ++ pack fs

def unpack : List Nat → List UInt8 → List Nat
  | [], _       => []
  | w :: ws, bs => leNat (bs.take w) :: unpack ws (bs.drop w)

theorem length_pack : ∀ (fs : List (Nat × Nat)), (pack fs).length = (fs.map Prod.fst).sum
  | []      => rfl
  | f :: fs => by simp [pack, length_pack fs]

/-- **A layout reads back what was packed**, whatever follows it. -/
theorem unpack_pack : ∀ (fs : List (Nat × Nat)) (rest : List UInt8), (∀ f ∈ fs, f.2 < 256 ^ f.1) →
    unpack (fs.map Prod.fst) (pack fs ++ rest) = fs.map Prod.snd
  | [], _, _         => rfl
  | f :: fs, rest, h => by
    have hf := leNat_leBytes f.1 f.2 (h f List.mem_cons_self)
    have ih := unpack_pack fs rest (fun g hg => h g (List.mem_cons_of_mem _ hg))
    rw [List.map_cons, List.map_cons, unpack, pack, List.append_assoc,
      List.take_append_of_le_length (by simp), List.drop_append_of_le_length (by simp),
      List.take_of_length_le (by simp), List.drop_of_length_le (by simp), List.nil_append, hf, ih]

/-- **A buffer of the layout's size is packed back from what was read.** -/
theorem pack_unpack : ∀ (ws : List Nat) (bs : List UInt8), bs.length = ws.sum → pack (ws.zip (unpack ws bs)) = bs
  | [], bs, h      => by simpa [pack] using (List.length_eq_zero_iff.1 h).symm
  | w :: ws, bs, h => by
    rw [List.sum_cons] at h
    have hw : (bs.take w).length = w := by rw [List.length_take]; omega
    have hd : (bs.drop w).length = ws.sum := by rw [List.length_drop]; omega
    have hle := leBytes_leNat (bs.take w)
    rw [hw] at hle
    rw [unpack, List.zip_cons_cons, pack, hle, pack_unpack ws _ hd, List.take_append_drop]

theorem pack_append : ∀ (fs gs : List (Nat × Nat)), pack (fs ++ gs) = pack fs ++ pack gs
  | [], _       => rfl
  | f :: fs, gs => by rw [List.cons_append, pack, pack, pack_append fs gs, List.append_assoc]

/-- **A field is read back in its place.** -/
theorem leNat_field (fs gs : List (Nat × Nat)) (f : Nat × Nat) (h : f.2 < 256 ^ f.1) {off : Nat}
    (hoff : (fs.map Prod.fst).sum = off) : leNat (((pack (fs ++ f :: gs)).drop off).take f.1) = f.2 := by
  have hlen : (pack fs).length = off := by rw [length_pack, hoff]
  have htake : (leBytes f.1 f.2 ++ pack gs).take f.1 = leBytes f.1 f.2 := List.take_left' (length_leBytes _ _)
  rw [pack_append, List.drop_left' hlen, pack, htake, leNat_leBytes _ _ h]

/-! ## Writing into a buffer -/

/-- `bs` written over `buf` from offset `off` on. -/
def overlay (buf : List UInt8) (off : Nat) (bs : List UInt8) : List UInt8 :=
  buf.take off ++ bs ++ buf.drop (off + bs.length)

/-- **A write at the end of the part already written** moves that end, and leaves the rest of the buffer blank. -/
theorem overlay_blank (done : List UInt8) (n off : Nat) (bs : List UInt8) (h : done.length = off) :
    overlay (done ++ List.replicate n 0) off bs = (done ++ bs) ++ List.replicate (n - bs.length) 0 := by
  subst h
  simp [overlay, List.drop_append]

/-! ## Words as bytes -/

theorem byte_mul_mod (b : UInt8) {m n : Nat} (h : 256 * m ≤ n) : b.toNat * m % n = b.toNat * m := by
  have hb := b.toNat_lt
  by_cases hm : m = 0
  · subst hm; simp
  · exact Nat.mod_eq_of_lt (Nat.lt_of_lt_of_le (Nat.mul_lt_mul_of_pos_right hb (by omega)) h)

theorem leNat_take_succ : ∀ (src : List UInt8) (n : Nat),
    leNat (src.take (n + 1)) = leNat (src.take n) + 256 ^ n * (src.getD n 0).toNat
  | [], n           => by simp [leNat]
  | b :: src, 0     => by simp [leNat]
  | b :: src, n + 1 => by
    rw [List.take_succ_cons, List.take_succ_cons, leNat, leNat, leNat_take_succ src n, List.getD_cons_succ,
      Nat.pow_succ, Nat.mul_add, Nat.add_assoc, Nat.mul_comm (256 ^ n) 256, Nat.mul_assoc]

theorem and_byte (b : UInt8) : b &&& 255 = b := by
  have h := Nat.and_two_pow_sub_one_eq_mod b.toNat 8
  apply UInt8.toNat_inj.1
  rw [UInt8.toNat_and, show (255 : UInt8).toNat = 2 ^ 8 - 1 from rfl, h, Nat.mod_eq_of_lt b.toNat_lt]

/-- The first `n` bytes of `src`, each shifted to its place and or-ed together. -/
def orBytes (src : List UInt8) (n : Nat) : Nat :=
  (List.range n).foldl (fun v i => v ||| (src.getD i 0).toNat <<< (8 * i)) 0

/-- **Or-ing shifted bytes spells their number**: the bytes do not overlap.  A byte past the end of `src` counts as
zero on both sides. -/
theorem orBytes_eq_leNat (src : List UInt8) : ∀ (n : Nat), orBytes src n = leNat (src.take n)
  | 0     => rfl
  | n + 1 => by
    have ih := orBytes_eq_leNat src n
    have hlt : leNat (src.take n) < 2 ^ (8 * n) := by
      have h := leNat_lt (src.take n)
      have hle : (256 : Nat) ^ (src.take n).length ≤ 256 ^ n :=
        Nat.pow_le_pow_right (by decide) (List.length_take_le n src)
      rw [Nat.pow_mul]
      exact Nat.lt_of_lt_of_le h hle
    unfold orBytes at ih ⊢
    rw [List.range_succ, List.foldl_append, List.foldl_cons, List.foldl_nil, ih, Nat.or_comm,
      ← Nat.shiftLeft_add_eq_or_of_lt hlt, Nat.shiftLeft_eq, leNat_take_succ, Nat.pow_mul, Nat.add_comm, Nat.mul_comm]

end Bytes
end Vip
