import Mathlib.Data.List.Count
import Mathlib.Logic.Function.Basic
/-!
# LibOwn — resources that are granted and released, and their holders

A ledger keeps what is out; granting what is out already and releasing what is not are faults.  A ledger without a fault
has granted each resource as often as it was released, or once more while it is out (`Ledger.balance`).  Holders share
the resources that are out when each of these has exactly one holder or is lost (`Owns`); the rules say which steps keep
this: a holder takes a new resource, gives back its own, passes it on, or loses it.
-/
namespace Vip
namespace Own

/-! ## The ledger -/

inductive Use (ρ : Type) where
  | acquire (r : ρ)
  | release (r : ρ)
  deriving DecidableEq, Repr

structure Ledger (ρ : Type) where
  live   : List ρ := []
  faults : List (Use ρ) := []
  -- history
  uses   : List (Use ρ) := []
  deriving DecidableEq, Repr

variable {η ρ : Type} [DecidableEq ρ]

def Ledger.use (l : Ledger ρ) (u : Use ρ) : Ledger ρ :=
  let l := { l with uses := l.uses ++ [u] }
  match u with
  | .acquire r => if r ∈ l.live then { l with faults := l.faults ++ [u] } else { l with live := r :: l.live }
  | .release r => if r ∈ l.live then { l with live := l.live.erase r } else { l with faults := l.faults ++ [u] }

def Ledger.useAll (l : Ledger ρ) (us : List (Use ρ)) : Ledger ρ := us.foldl Ledger.use l

def giveBack (o : Option ρ) : List (Use ρ) := o.toList.map .release

section Ledger

variable {l : Ledger ρ} {r : ρ}

theorem use_acquire (h : r ∉ l.live) :
    l.use (.acquire r) = { l with live := r :: l.live, uses := l.uses ++ [.acquire r] } := if_neg h

theorem use_release (h : r ∈ l.live) :
    l.use (.release r) = { l with live := l.live.erase r, uses := l.uses ++ [.release r] } := if_pos h

/-- What is out was granted once more than it was released, and nothing else was. -/
def Ledger.Balanced (l : Ledger ρ) : Prop :=
  l.live.Nodup ∧ (l.faults = [] → ∀ r, l.uses.count (.acquire r) = l.uses.count (.release r) + l.live.count r)

theorem Ledger.Balanced.use (h : l.Balanced) (u : Use ρ) : (l.use u).Balanced := by
  obtain ⟨hnodup, hcount⟩ := h
  cases u with
  | acquire r =>
    by_cases hr : r ∈ l.live
    · refine ⟨?_, fun hf => ?_⟩
      · simp only [Ledger.use, if_pos hr]
        exact hnodup
      · simp only [Ledger.use, if_pos hr, List.append_eq_nil_iff, List.cons_ne_self, and_false] at hf
    · rw [use_acquire hr]
      refine ⟨List.nodup_cons.2 ⟨hr, hnodup⟩, fun hf x => ?_⟩
      have hx := hcount hf x
      by_cases hxr : r = x
      · subst hxr
        simp [hx]
        omega
      · simp [hx, hxr]
  | release r =>
    by_cases hr : r ∈ l.live
    · rw [use_release hr]
      refine ⟨hnodup.erase r, fun hf x => ?_⟩
      have hx := hcount hf x
      by_cases hxr : r = x
      · subst hxr
        have hone := List.count_pos_iff.2 hr
        simp [hx, List.count_erase_self]
        omega
      · simp [hx, hxr, List.count_erase_of_ne (Ne.symm hxr)]
    · refine ⟨?_, fun hf => ?_⟩
      · simp only [Ledger.use, if_neg hr]
        exact hnodup
      · simp only [Ledger.use, if_neg hr, List.append_eq_nil_iff, List.cons_ne_self, and_false] at hf

theorem balanced_useAll : ∀ (us : List (Use ρ)) {l : Ledger ρ}, l.Balanced → (l.useAll us).Balanced
  | [], _, h      => h
  | u :: us, _, h => balanced_useAll us (h.use u)

end Ledger

/-! ## Holders -/

open Function (update)

theorem of_update_none {κ α : Type} [DecidableEq κ] {holds : κ → Option α} {k i : κ} {r : α}
    (hi : update holds k none i = some r) : holds i = some r := by
  rw [Function.update_apply] at hi
  split at hi
  · cases hi
  · exact hi

theorem move_unique {κ : Type} {k k' i i' j : κ} (hi : i = k ∧ j = k' ∨ i ≠ k ∧ j = i ∧ i ≠ k')
    (hi' : i' = k ∧ j = k' ∨ i' ≠ k ∧ j = i' ∧ i' ≠ k') : i = i' := by
  rcases hi with ⟨hi, hj⟩ | ⟨-, hj, hne⟩ <;> rcases hi' with ⟨hi', hj'⟩ | ⟨-, hj', hne'⟩
  · rw [hi, hi']
  · exact absurd (hj'.symm.trans hj) hne'
  · exact absurd (hj.symm.trans hj') hne
  · exact hj.symm.trans hj'

section Move

variable {κ α : Type} [DecidableEq κ] {holds : κ → Option α} {k k' i j : κ} {r : α}

theorem of_move (hi : update (update holds k' none) k (holds k') i = some r) :
    ∃ j, holds j = some r ∧ (i = k ∧ j = k' ∨ i ≠ k ∧ j = i ∧ i ≠ k') := by
  rw [Function.update_apply] at hi
  split at hi
  · rename_i hik
    exact ⟨k', hi, .inl ⟨hik, rfl⟩⟩
  · rename_i hik
    rw [Function.update_apply] at hi
    split at hi
    · cases hi
    · rename_i hik'
      exact ⟨i, hi, .inr ⟨hik, rfl, hik'⟩⟩

theorem to_move (hk : holds k = none) (hi : holds i = some r) :
    ∃ j, update (update holds k' none) k (holds k') j = some r := by
  by_cases hik' : i = k'
  · refine ⟨k, ?_⟩
    rw [Function.update_self, ← hik']
    exact hi
  · refine ⟨i, ?_⟩
    rw [Function.update_of_ne (by rintro rfl; rw [hk] at hi; cases hi), Function.update_of_ne hik']
    exact hi

end Move

/-- Each resource that is out has one holder, or is lost. -/
structure Owns (holds : η → Option ρ) (lost : List ρ) (l : Ledger ρ) : Prop where
  sound    : l.faults = []
  balanced : l.Balanced
  live_iff : ∀ r, r ∈ l.live ↔ (∃ k, holds k = some r) ∨ r ∈ lost
  unique   : ∀ k k' r, holds k = some r → holds k' = some r → k = k'
  apart    : ∀ k r, holds k = some r → r ∉ lost

namespace Owns

variable {holds : η → Option ρ} {lost : List ρ} {l : Ledger ρ} {k k' : η} {r : ρ}

theorem init : Owns (fun _ : η => none) [] ({} : Ledger ρ) :=
  ⟨rfl, ⟨List.nodup_nil, fun _ _ => rfl⟩, fun _ => by simp, fun _ _ _ h => (by cases h), fun _ _ h => (by cases h)⟩

theorem none_live (h : Owns holds [] l) (hnone : ∀ k, holds k = none) : l.live = [] := by
  rw [List.eq_nil_iff_forall_not_mem]
  intro r hr
  rcases (h.live_iff r).1 hr with ⟨k, hk⟩ | hr
  · rw [hnone] at hk
    cases hk
  · cases hr

theorem passing (h : Owns holds lost l) (hr : r ∉ l.live) :
    Owns holds lost (l.useAll [.acquire r, .release r]) := by
  have hmem : r ∈ (l.use (.acquire r)).live := by
    rw [use_acquire hr]
    exact List.mem_cons_self
  have hlive : ((l.use (.acquire r)).use (.release r)).live = l.live := by
    rw [use_release hmem, use_acquire hr, List.erase_cons_head]
  have hfaults : ((l.use (.acquire r)).use (.release r)).faults = [] := by
    rw [use_release hmem, use_acquire hr]
    exact h.sound
  refine ⟨hfaults, balanced_useAll _ h.balanced, fun x => ?_, h.unique, h.apart⟩
  rw [← h.live_iff, ← hlive]
  exact Iff.rfl

variable [DecidableEq η]

theorem acquire (h : Owns holds lost l) (hk : holds k = none) (hr : r ∉ l.live) :
    Owns (update holds k (some r)) lost (l.use (.acquire r)) := by
  have hnone : ¬ ((∃ k, holds k = some r) ∨ r ∈ lost) := fun hx => hr ((h.live_iff r).2 hx)
  refine ⟨?_, h.balanced.use _, fun x => ?_, fun i j x hi hj => ?_, fun i x hi => ?_⟩
  · rw [use_acquire hr]
    exact h.sound
  · rw [use_acquire hr, List.mem_cons, h.live_iff]
    constructor
    · rintro (rfl | ⟨i, hi⟩ | hl)
      · exact .inl ⟨k, Function.update_self ..⟩
      · refine .inl ⟨i, ?_⟩
        rw [Function.update_of_ne (by rintro rfl; rw [hk] at hi; cases hi)]
        exact hi
      · exact .inr hl
    · rintro (⟨i, hi⟩ | hl)
      · rw [Function.update_apply] at hi
        split at hi
        · exact .inl (Option.some.inj hi).symm
        · exact .inr (.inl ⟨i, hi⟩)
      · exact .inr (.inr hl)
  · rw [Function.update_apply] at hi hj
    split at hi <;> split at hj
    · rename_i hik hjk
      rw [hik, hjk]
    · cases hi
      exact absurd (.inl ⟨j, hj⟩) hnone
    · cases hj
      exact absurd (.inl ⟨i, hi⟩) hnone
    · exact h.unique i j x hi hj
  · rw [Function.update_apply] at hi
    split at hi
    · cases hi
      exact fun hl => hnone (.inr hl)
    · exact h.apart i x hi

theorem drop_iff (h : Owns holds lost l) (hk : holds k = some r) (x : ρ) :
    (∃ i, update holds k none i = some x) ↔ x ≠ r ∧ ∃ i, holds i = some x := by
  constructor
  · rintro ⟨i, hi⟩
    rw [Function.update_apply] at hi
    split at hi
    · cases hi
    · rename_i hik
      refine ⟨?_, i, hi⟩
      rintro rfl
      exact hik (h.unique i k x hi hk)
  · rintro ⟨hne, i, hi⟩
    refine ⟨i, ?_⟩
    rw [Function.update_of_ne]
    · exact hi
    · rintro rfl
      rw [hk] at hi
      exact hne (Option.some.inj hi).symm

theorem release (h : Owns holds lost l) (hk : holds k = some r) :
    Owns (update holds k none) lost (l.use (.release r)) := by
  have hr : r ∈ l.live := (h.live_iff r).2 (.inl ⟨k, hk⟩)
  refine ⟨?_, h.balanced.use _, fun x => ?_, fun i j x hi hj => ?_, fun i x hi => ?_⟩
  · rw [use_release hr]
    exact h.sound
  · rw [use_release hr, h.balanced.1.mem_erase_iff, h.live_iff, h.drop_iff hk]
    constructor
    · rintro ⟨hne, hx | hx⟩
      · exact .inl ⟨hne, hx⟩
      · exact .inr hx
    · rintro (⟨hne, hx⟩ | hx)
      · exact ⟨hne, .inl hx⟩
      · refine ⟨?_, .inr hx⟩
        rintro rfl
        exact h.apart k x hk hx
  · exact h.unique i j x (of_update_none hi) (of_update_none hj)
  · exact h.apart i x (of_update_none hi)

theorem lose (h : Owns holds lost l) (hk : holds k = some r) : Owns (update holds k none) (r :: lost) l := by
  refine ⟨h.sound, h.balanced, fun x => ?_, fun i j x hi hj => ?_, fun i x hi => ?_⟩
  · rw [h.live_iff, h.drop_iff hk, List.mem_cons]
    constructor
    · rintro (hx | hx)
      · by_cases hxr : x = r
        · exact .inr (.inl hxr)
        · exact .inl ⟨hxr, hx⟩
      · exact .inr (.inr hx)
    · rintro (⟨-, hx⟩ | rfl | hx)
      · exact .inl hx
      · exact .inl ⟨k, hk⟩
      · exact .inr hx
  · exact h.unique i j x (of_update_none hi) (of_update_none hj)
  · have hx := (h.drop_iff hk x).1 ⟨i, hi⟩
    rw [List.mem_cons, not_or]
    exact ⟨hx.1, h.apart i x (of_update_none hi)⟩

theorem clear (h : Owns holds lost l) (k : η) : Owns (update holds k none) lost (l.useAll (giveBack (holds k))) := by
  cases hk : holds k with
  | none   =>
    rw [Function.update_eq_self_iff.2 hk.symm]
    exact h
  | some r => exact h.release hk

theorem move (h : Owns holds lost l) (k' : η) (hk : holds k = none) :
    Owns (update (update holds k' none) k (holds k')) lost l := by
  refine ⟨h.sound, h.balanced, fun x => ?_, fun i j x hi hj => ?_, fun i x hi => ?_⟩
  · rw [h.live_iff]
    refine or_congr_left ?_
    constructor
    · rintro ⟨i, hi⟩
      exact to_move hk hi
    · rintro ⟨i, hi⟩
      obtain ⟨j, hj, -⟩ := of_move hi
      exact ⟨j, hj⟩
  · obtain ⟨i', hi', hi⟩ := of_move hi
    obtain ⟨j', hj', hj⟩ := of_move hj
    cases h.unique i' j' x hi' hj'
    exact move_unique hi hj
  · obtain ⟨j, hj, -⟩ := of_move hi
    exact h.apart j x hj

end Owns

end Own
end Vip
