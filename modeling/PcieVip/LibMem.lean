import Mathlib.Algebra.Group.Nat.Defs
import Mathlib.Data.List.Basic
/-!
# LibMem — byte memories

A memory is a function from addresses of `w` bits; addresses wrap.  `read` and `write` move a range.  Ranges are `Apart`
when they share no address; a write is seen in its own range (`read_write_same`) and nowhere apart from it
(`read_write_apart`).  `lastByte` is what a history of writes leaves at an address.
-/
namespace Vip
namespace Mem

variable {w : Nat} {α : Type}

def read (m : BitVec w → α) (a : BitVec w) (n : Nat) : List α :=
  (List.range n).map (fun i => m (a + BitVec.ofNat w i))

def write (m : BitVec w → α) (a : BitVec w) (bs : List α) : BitVec w → α :=
  fun x => (bs[(x - a).toNat]?).getD (m x)

def Apart (a : BitVec w) (n : Nat) (b : BitVec w) (k : Nat) : Prop :=
  ∀ i < n, ∀ j < k, a + BitVec.ofNat w i ≠ b + BitVec.ofNat w j

@[simp] theorem length_read (m : BitVec w → α) (a : BitVec w) (n : Nat) : (read m a n).length = n := by simp [read]

theorem Apart.symm {a b : BitVec w} {n k : Nat} (h : Apart a n b k) : Apart b k a n :=
  fun j hj i hi heq => h i hi j hj heq.symm

theorem add_ofNat_add (a : BitVec w) (i j : Nat) :
    a + BitVec.ofNat w i + BitVec.ofNat w j = a + BitVec.ofNat w (i + j) := by
  rw [BitVec.add_assoc, ← BitVec.ofNat_add]

theorem toNat_offset (a : BitVec w) {i : Nat} (hi : i < 2 ^ w) : (a + BitVec.ofNat w i - a).toNat = i := by
  rw [BitVec.add_comm, BitVec.add_sub_cancel, BitVec.toNat_ofNat, Nat.mod_eq_of_lt hi]

theorem add_offset (a x : BitVec w) : a + BitVec.ofNat w (x - a).toNat = x := by
  rw [BitVec.ofNat_toNat, BitVec.setWidth_eq, BitVec.add_comm, BitVec.sub_add_cancel]

theorem Apart.part {a b : BitVec w} {n k : Nat} (h : Apart a n b k) (off n' : Nat) (hn : off + n' ≤ n) :
    Apart (a + BitVec.ofNat w off) n' b k := by
  intro i hi j hj
  rw [add_ofNat_add]
  exact h (off + i) (by omega) j hj

theorem apart_parts (a : BitVec w) {i n j k : Nat} (hij : i + n ≤ j) (hj : j + k ≤ 2 ^ w) :
    Apart (a + BitVec.ofNat w i) n (a + BitVec.ofNat w j) k := by
  intro x hx y hy heq
  rw [add_ofNat_add, add_ofNat_add] at heq
  have h1 := toNat_offset a (i := i + x) (by omega)
  have h2 := toNat_offset a (i := j + y) (by omega)
  rw [heq] at h1
  omega

theorem apart_of_le {a b : BitVec w} {n k : Nat} (hab : a.toNat + n ≤ b.toNat) (hb : b.toNat + k ≤ 2 ^ w) :
    Apart a n b k := by
  have h := apart_parts (0#w) hab hb
  rwa [BitVec.ofNat_toNat, BitVec.ofNat_toNat, BitVec.setWidth_eq, BitVec.setWidth_eq, BitVec.zero_add,
    BitVec.zero_add] at h

theorem read_add (m : BitVec w → α) (a : BitVec w) (n k : Nat) :
    read m a (n + k) = read m a n ++ read m (a + BitVec.ofNat w n) k := by
  simp only [read, List.range_add, List.map_append, List.map_map, Function.comp_def, add_ofNat_add]

/-- **What was written is read back.** -/
theorem read_write_same (m : BitVec w → α) (a : BitVec w) {bs : List α} {n : Nat} (hn : bs.length = n)
    (h : n ≤ 2 ^ w) : read (write m a bs) a n = bs := by
  apply List.ext_getElem
  · rw [length_read, hn]
  · intro i h1 h2
    rw [length_read] at h1
    simp only [read, write, List.getElem_map, List.getElem_range]
    rw [toNat_offset a (by omega), List.getElem?_eq_getElem h2, Option.getD_some]

/-- **What lies apart from a write is as before.** -/
theorem read_write_apart (m : BitVec w → α) {a b : BitVec w} {n : Nat} {bs : List α} (h : Apart a n b bs.length) :
    read (write m b bs) a n = read m a n := by
  apply List.map_congr_left
  intro i hi
  have hi : i < n := List.mem_range.1 hi
  unfold write
  cases hb : bs[(a + BitVec.ofNat w i - b).toNat]? with
  | none => rfl
  | some y =>
    have hlt := (List.getElem?_eq_some_iff.1 hb).1
    exact absurd (add_offset b (a + BitVec.ofNat w i)).symm (h i hi _ hlt)

theorem write_write_same (m : BitVec w → α) (a : BitVec w) {bs cs : List α} (h : bs.length ≤ cs.length) :
    write (write m a bs) a cs = write m a cs := by
  funext x
  unfold write
  cases hc : cs[(x - a).toNat]? with
  | some y => rfl
  | none   =>
    have hb : bs[(x - a).toNat]? = none := by
      rw [List.getElem?_eq_none_iff] at hc ⊢
      omega
    rw [hb]
    rfl

theorem read_part {m : BitVec w → α} {a : BitVec w} {xs ys zs : List α} {n : Nat}
    (h : read m a n = xs ++ ys ++ zs) : read m (a + BitVec.ofNat w xs.length) ys.length = ys := by
  have hlen := congrArg List.length h
  simp only [length_read, List.length_append] at hlen
  subst hlen
  rw [read_add, read_add] at h
  have h1 := (List.append_inj h (by simp)).1
  exact (List.append_inj h1 (by simp)).2

/-! ## Histories of writes -/

structure Patch (α : Type) where
  start : Nat
  bytes : List α

def Patch.covers (p : Patch α) (x : Nat) : Prop := p.start ≤ x ∧ x < p.start + p.bytes.length

instance (p : Patch α) (x : Nat) : Decidable (p.covers x) := inferInstanceAs (Decidable (_ ∧ _))

/-- What the last patch that covers an address put there; what was there at first, if none does. -/
def lastByte (init : Nat → α) (ps : List (Patch α)) (x : Nat) : α :=
  ((ps.reverse.find? (fun p => decide (p.covers x))).bind (fun p => p.bytes[x - p.start]?)).getD (init x)

theorem lastByte_singleton (init : Nat → α) (p : Patch α) (x : Nat) :
    lastByte init [p] x = if p.covers x then (p.bytes[x - p.start]?).getD (init x) else init x := by
  unfold lastByte
  rw [List.reverse_singleton, List.find?_singleton]
  by_cases h : p.covers x
  · simp [h]
  · simp [h]

theorem lastByte_congr {init init' : Nat → α} {x : Nat} (h : init x = init' x) (ps : List (Patch α)) :
    lastByte init ps x = lastByte init' ps x := by
  unfold lastByte
  rw [h]

theorem lastByte_append (init : Nat → α) (ps qs : List (Patch α)) (x : Nat) :
    lastByte init (ps ++ qs) x = lastByte (lastByte init ps) qs x := by
  unfold lastByte
  rw [List.reverse_append, List.find?_append]
  cases h : qs.reverse.find? (fun p => decide (p.covers x)) with
  | none   => rfl
  | some p =>
    have hcovers : p.covers x := by simpa using List.find?_some h
    have hlt : x - p.start < p.bytes.length := by
      obtain ⟨hle, hlt⟩ := hcovers
      omega
    simp [List.getElem?_eq_getElem hlt]

theorem write_ofNat (m : BitVec w → α) {a : BitVec w} {bs : List α} (h : a.toNat + bs.length ≤ 2 ^ w) {x : Nat}
    (hx : x < 2 ^ w) :
    write m a bs (BitVec.ofNat w x) =
      if (Patch.mk a.toNat bs).covers x then (bs[x - a.toNat]?).getD (m (BitVec.ofNat w x))
      else m (BitVec.ofNat w x) := by
  have hsub : (BitVec.ofNat w x - a).toNat = (2 ^ w - a.toNat + x) % 2 ^ w := by
    rw [BitVec.toNat_sub, BitVec.toNat_ofNat, Nat.mod_eq_of_lt hx]
  have ha := a.isLt
  unfold write
  rw [hsub]
  by_cases hle : a.toNat ≤ x
  · have hmod : (2 ^ w - a.toNat + x) % 2 ^ w = x - a.toNat := by
      rw [show 2 ^ w - a.toNat + x = (x - a.toNat) + 2 ^ w by omega, Nat.add_mod_right, Nat.mod_eq_of_lt (by omega)]
    rw [hmod]
    split
    · rfl
    · rename_i hout
      have hge : bs.length ≤ x - a.toNat := by
        refine Nat.not_lt.1 (fun hlt => hout ⟨hle, ?_⟩)
        dsimp only
        omega
      rw [List.getElem?_eq_none hge, Option.getD_none]
  · have hmod : (2 ^ w - a.toNat + x) % 2 ^ w = 2 ^ w - a.toNat + x := Nat.mod_eq_of_lt (by omega)
    rw [hmod, if_neg (fun hc => hle hc.1), List.getElem?_eq_none (by omega), Option.getD_none]

end Mem
end Vip
