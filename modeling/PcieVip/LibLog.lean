import Mathlib.Data.List.Basic
/-!
# LibLog — places in a list that grows at its end

`firstFrom p l n` is the first place of `l` from `n` on that has `p`, and `places p l` are all of them in order.  Both
are described by what one more element changes; a place that was found once is found in every longer list.
-/
namespace Vip
namespace Log

variable {α : Type} (p : α → Bool)

def firstFrom (l : List α) (n : Nat) : Option Nat := ((l.drop n).findIdx? p).map (· + n)

def places (l : List α) : List Nat := l.zipIdx.filterMap (fun x => if p x.1 then some x.2 else none)

variable {p} {l : List α} {n k : Nat} {x : α}

theorem firstFrom_concat (x : α) (h : n ≤ l.length) :
    firstFrom p (l ++ [x]) n = (firstFrom p l n).or (if p x then some l.length else none) := by
  rw [firstFrom, firstFrom, List.drop_append_of_le_length h, List.findIdx?_append, Option.map_or]
  congr 1
  cases hp : p x with
  | false => simp [hp]
  | true  =>
    simp only [List.findIdx?_cons, hp, if_true, Option.map_some, List.length_drop]
    rw [Nat.zero_add, Nat.sub_add_cancel h]

theorem firstFrom_end (l : List α) : firstFrom p l l.length = none := by
  rw [firstFrom, List.drop_length]
  rfl

theorem firstFrom_eq_some_iff :
    firstFrom p l n = some k ↔
      n ≤ k ∧ (∃ x, l[k]? = some x ∧ p x = true) ∧ ∀ j x, n ≤ j → j < k → l[j]? = some x → p x = false := by
  rw [firstFrom, Option.map_eq_some_iff]
  constructor
  · rintro ⟨i, hi, rfl⟩
    obtain ⟨hlt, hp, hfirst⟩ := List.findIdx?_eq_some_iff_getElem.1 hi
    refine ⟨Nat.le_add_left n i, ⟨_, ?_, hp⟩, ?_⟩
    · rw [Nat.add_comm, ← List.getElem?_drop, List.getElem?_eq_getElem hlt]
    · intro j x hj hlt' hx
      have hplace : (l.drop n)[j - n]? = some x := by rw [List.getElem?_drop, Nat.add_sub_cancel' hj, hx]
      obtain ⟨hb, heq⟩ := List.getElem?_eq_some_iff.1 hplace
      have := hfirst (j - n) (by omega)
      rw [heq] at this
      exact Bool.eq_false_iff.2 this
  · rintro ⟨hnk, ⟨x, hx, hp⟩, hfirst⟩
    have hplace : (l.drop n)[k - n]? = some x := by rw [List.getElem?_drop, Nat.add_sub_cancel' hnk, hx]
    obtain ⟨hb, heq⟩ := List.getElem?_eq_some_iff.1 hplace
    refine ⟨k - n, List.findIdx?_eq_some_iff_getElem.2 ⟨hb, by rw [heq]; exact hp, fun j hj => ?_⟩, by omega⟩
    have hjk : (l.drop n)[j]? = some (l.drop n)[j] := List.getElem?_eq_getElem _
    rw [List.getElem?_drop] at hjk
    exact Bool.eq_false_iff.1 (hfirst (n + j) _ (by omega) (by omega) hjk)

theorem firstFrom_eq_none_iff : firstFrom p l n = none ↔ ∀ k x, n ≤ k → l[k]? = some x → p x = false := by
  rw [firstFrom, Option.map_eq_none_iff, List.findIdx?_eq_none_iff]
  constructor
  · intro h k x hk hx
    refine h x (List.mem_of_getElem? (i := k - n) ?_)
    rw [List.getElem?_drop, Nat.add_sub_cancel' hk, hx]
  · intro h x hx
    obtain ⟨i, hi⟩ := List.mem_iff_getElem?.1 hx
    rw [List.getElem?_drop] at hi
    exact h (n + i) x (Nat.le_add_right n i) hi

theorem places_concat (l : List α) (x : α) : places p (l ++ [x]) = places p l ++ if p x then [l.length] else [] := by
  rw [places, List.zipIdx_append, List.filterMap_append, List.zipIdx_singleton, Nat.zero_add]
  congr 1
  cases hp : p x <;> simp [hp]

/-! ## Nothing moves -/

theorem getElem?_append_of_some (h : l[k]? = some x) (m : List α) : (l ++ m)[k]? = some x := by
  rw [List.getElem?_append_left (List.getElem?_eq_some_iff.1 h).1]
  exact h

theorem getElem?_concat_of_some (h : l[k]? = some x) (y : α) : (l ++ [y])[k]? = some x := getElem?_append_of_some h [y]

theorem prefix_getElem? {m : List α} (h : l <+: m) (hk : l[k]? = some x) : m[k]? = some x := by
  obtain ⟨rest, rfl⟩ := h
  exact getElem?_append_of_some hk rest

end Log
end Vip
