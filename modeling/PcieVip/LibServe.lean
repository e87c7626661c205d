import Mathlib.Data.List.Basic
/-!
# LibServe — machines that answer each input

A machine takes an input and gives an output; `after` is its state and `outputs` what it gave, over a list of inputs.
Two machines give the same outputs when a relation between their states is kept and the outputs agree at each input
(`outputs_eq_of_sim`); when in addition they disagree at every other input, they give the same outputs exactly on the
lists without such an input (`outputs_eq_iff_of_sim`).
-/
namespace Vip
namespace Serve

variable {σ τ ι ω : Type}

def after (step : σ → ι → σ × ω) : σ → List ι → σ
  | s, []      => s
  | s, i :: is => after step (step s i).1 is

def outputs (step : σ → ι → σ × ω) : σ → List ι → List ω
  | _, []      => []
  | s, i :: is => (step s i).2 :: outputs step (step s i).1 is

theorem after_append (step : σ → ι → σ × ω) : ∀ (s : σ) (is js : List ι),
    after step s (is ++ js) = after step (after step s is) js
  | _, [], _       => rfl
  | s, i :: is, js => after_append step (step s i).1 is js

theorem after_concat (step : σ → ι → σ × ω) (s : σ) (is : List ι) (i : ι) :
    after step s (is ++ [i]) = (step (after step s is) i).1 := after_append step s is [i]

theorem after_invariant {step : σ → ι → σ × ω} {I : σ → Prop} (h : ∀ s i, I s → I (step s i).1) :
    ∀ (is : List ι) (s : σ), I s → I (after step s is)
  | [], _, hs      => hs
  | i :: is, s, hs => after_invariant h is _ (h s i hs)

theorem outputs_append (step : σ → ι → σ × ω) : ∀ (s : σ) (is js : List ι),
    outputs step s (is ++ js) = outputs step s is ++ outputs step (after step s is) js
  | _, [], _       => rfl
  | s, i :: is, js => by rw [List.cons_append, outputs, outputs, outputs_append step _ is js]; rfl

theorem length_outputs (step : σ → ι → σ × ω) : ∀ (s : σ) (is : List ι), (outputs step s is).length = is.length
  | _, []      => rfl
  | s, i :: is => by rw [outputs, List.length_cons, length_outputs step _ is, List.length_cons]

/-- **What holds of the state and the empty trace, and is kept by every step, holds of every state and its trace.** -/
theorem trace_invariant {step : σ → ι → σ × ω} {I : List ω → σ → Prop}
    (h : ∀ o s i, I o s → I (o ++ [(step s i).2]) (step s i).1) :
    ∀ (is : List ι) (o : List ω) (s : σ), I o s → I (o ++ outputs step s is) (after step s is)
  | [], o, s, hs      => by rwa [outputs, List.append_nil]
  | i :: is, o, s, hs => by
    have := trace_invariant h is _ _ (h o s i hs)
    rwa [List.append_assoc] at this

theorem outputs_singleton (step : σ → ι → σ × ω) (s : σ) (i : ι) : outputs step s [i] = [(step s i).2] := rfl

theorem rel_ite (R : σ → τ → Prop) {p : Prop} [Decidable p] {a b : σ} {a' b' : τ} (ha : p → R a a')
    (hb : ¬ p → R b b') : R (if p then a else b) (if p then a' else b') := by
  by_cases h : p
  · rw [if_pos h, if_pos h]
    exact ha h
  · rw [if_neg h, if_neg h]
    exact hb h

variable {f : σ → ι → σ × ω} {g : τ → ι → τ × ω} {R : σ → τ → Prop} {P : ι → Prop}

/-- **Machines that stay related and agree at each input give the same outputs.** -/
theorem outputs_eq_of_sim (h : ∀ s t i, R s t → P i → R (f s i).1 (g t i).1 ∧ (f s i).2 = (g t i).2) :
    ∀ (is : List ι) (s : σ) (t : τ), (∀ i ∈ is, P i) → R s t → outputs f s is = outputs g t is
  | [], _, _, _, _      => rfl
  | i :: is, s, t, hp, hr => by
    obtain ⟨hr', hout⟩ := h s t i hr (hp i List.mem_cons_self)
    rw [outputs, outputs, hout,
      outputs_eq_of_sim h is _ _ (fun j hj => hp j (List.mem_cons_of_mem _ hj)) hr']

/-- **They give the same outputs exactly on the lists without an input that tells them apart.** -/
theorem outputs_eq_iff_of_sim {D : ι → Prop}
    (hsim : ∀ s t i, R s t → D i → P i → R (f s i).1 (g t i).1 ∧ (f s i).2 = (g t i).2)
    (hsep : ∀ s t i, R s t → D i → ¬ P i → (f s i).2 ≠ (g t i).2) :
    ∀ (is : List ι) (s : σ) (t : τ), (∀ i ∈ is, D i) → R s t → (outputs f s is = outputs g t is ↔ ∀ i ∈ is, P i)
  | [], _, _, _, _      => ⟨fun _ _ h => (by cases h), fun _ => rfl⟩
  | i :: is, s, t, hd, hr => by
    have hdi := hd i List.mem_cons_self
    have hds := fun j hj => hd j (List.mem_cons_of_mem i hj)
    rw [outputs, outputs, List.cons.injEq, List.forall_mem_cons]
    constructor
    · rintro ⟨hout, hrest⟩
      have hp : P i := Classical.byContradiction (fun hp => hsep s t i hr hdi hp hout)
      exact ⟨hp, (outputs_eq_iff_of_sim hsim hsep is _ _ hds (hsim s t i hr hdi hp).1).1 hrest⟩
    · rintro ⟨hp, hps⟩
      obtain ⟨hr', hout⟩ := hsim s t i hr hdi hp
      exact ⟨hout, (outputs_eq_iff_of_sim hsim hsep is _ _ hds hr').2 hps⟩

/-! ## A place for one value -/

variable {α : Type}

/-- The place after a value came in or its value went out. -/
def hold (held push : Option α) (pop : Bool) : Option α := push.or (if pop then none else held)

/-- **What came in is what went out and what is held**, if a value comes in only where there is none. -/
theorem append_hold {ins outs : List α} {held push : Option α} {pop : Bool} (h : ins = outs ++ held.toList)
    (hfree : push ≠ none → held = none) :
    ins ++ push.toList = (outs ++ (if pop then held else none).toList) ++ (hold held push pop).toList := by
  subst h
  cases push with
  | none   => cases pop <;> simp [hold]
  | some a =>
    rw [hfree nofun]
    cases pop <;> simp [hold]

end Serve
end Vip
