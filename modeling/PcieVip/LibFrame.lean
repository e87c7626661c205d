import Mathlib.Data.List.Basic
/-!
# LibFrame — complete messages on a line

A line carries a byte string; a predicate says which strings are complete messages.  `Framed` is the invariant a reader
needs: what was written is a front part of a concatenation of complete messages.  `framed_of_unbroken` is the rule for
a sequence of writes of which each may stop early.
-/
namespace Vip
namespace Frame

variable {α : Type}

def Framed (Complete : List α → Prop) (bs : List α) : Prop :=
  ∃ ms : List (List α), (∀ m ∈ ms, Complete m) ∧ bs <+: ms.flatten

/-- A write of `whole` of which `part` got through. -/
structure Attempt (α : Type) where
  whole : List α
  part  : List α
  front : part <+: whole

def written (as : List (Attempt α)) : List α := as.flatMap (·.part)

/-- Nothing is written after a write that stopped in the middle. -/
def Unbroken (as : List (Attempt α)) : Prop :=
  as.Pairwise (fun a b => (a.part = [] ∨ a.part = a.whole) ∨ b.part = [])

variable {Complete : List α → Prop}

theorem Framed.of_front {m bs : List α} (hm : Complete m) (h : bs <+: m) : Framed Complete bs :=
  ⟨[m], by simpa using hm, by simpa using h⟩

theorem Framed.append {m bs : List α} (hm : Complete m) (h : Framed Complete bs) : Framed Complete (m ++ bs) := by
  obtain ⟨ms, hms, hbs⟩ := h
  refine ⟨m :: ms, ?_, ?_⟩
  · intro x hx
    rcases List.mem_cons.1 hx with rfl | hx
    · exact hm
    · exact hms x hx
  · rw [List.flatten_cons]
    exact (List.prefix_append_right_inj m).2 hbs

/-- **Writes keep a line framed as long as nothing follows one that stopped in the middle.** -/
theorem framed_of_unbroken : ∀ (as : List (Attempt α)), (∀ a ∈ as, Complete a.whole) → Unbroken as →
    Framed Complete (written as)
  | [], _, _       => ⟨[], by simp, by simp [written]⟩
  | a :: as, hc, h => by
    obtain ⟨ha, has⟩ := List.pairwise_cons.1 h
    have hcomplete := hc a List.mem_cons_self
    have ih := framed_of_unbroken as (fun b hb => hc b (List.mem_cons_of_mem _ hb)) has
    have hw : written (a :: as) = a.part ++ written as := List.flatMap_cons
    rw [hw]
    by_cases hlast : ∀ b ∈ as, b.part = []
    · -- the last write that got anything through
      have hnil : written as = [] := by
        rw [written, List.flatMap_eq_nil_iff]
        exact hlast
      rw [hnil, List.append_nil]
      exact Framed.of_front hcomplete a.front
    · push Not at hlast
      obtain ⟨b, hb, hne⟩ := hlast
      rcases (ha b hb).resolve_right hne with hp | hp
      · rw [hp]; exact ih
      · rw [hp]; exact Framed.append hcomplete ih

end Frame
end Vip
