import Mathlib.Data.List.Basic
/-!
# LibRun — runs of a labelled machine

A machine is a partial step function: `step s l` is the state after the event `l`, or `none` where `l` cannot happen.  A
run is a list of events.  `run_invariant` is the invariant rule; `run_invariant_along` is the rule for runs whose every
step meets a condition on the state before it and the event (`Along`); `run_history` is the rule for invariants between
the state and what the steps have put down (`history`).  Threads are kept in a list and known by their position: a step
replaces one of them or adds one at the end.
-/
namespace Vip
namespace Run

variable {σ ε : Type}

def run (step : σ → ε → Option σ) : σ → List ε → Option σ
  | s, []      => some s
  | s, e :: es => (step s e).bind (fun s' => run step s' es)

/-- Every step of the run meets `G`. -/
def Along (step : σ → ε → Option σ) (G : σ → ε → Prop) : σ → List ε → Prop
  | _, []      => True
  | s, e :: es => G s e ∧ ∀ s' ∈ step s e, Along step G s' es

instance decidableAlong (step : σ → ε → Option σ) (G : σ → ε → Prop) [∀ s e, Decidable (G s e)] :
    ∀ (s : σ) (es : List ε), Decidable (Along step G s es)
  | _, []      => isTrue trivial
  | s, e :: es =>
    haveI : ∀ s', Decidable (Along step G s' es) := fun s' => decidableAlong step G s' es
    inferInstanceAs (Decidable (G s e ∧ ∀ s' ∈ step s e, Along step G s' es))

variable {step : σ → ε → Option σ}

theorem run_cons {s s' : σ} {e : ε} {es : List ε} (h : run step s (e :: es) = some s') :
    ∃ t, step s e = some t ∧ run step t es = some s' :=
  Option.bind_eq_some_iff.1 h

/-- **What holds at the start and is kept by every step that meets `G` holds at the end of every run along `G`.** -/
theorem run_invariant_along {G : σ → ε → Prop} {I : σ → Prop}
    (hstep : ∀ s e s', I s → G s e → step s e = some s' → I s') :
    ∀ (es : List ε) (s s' : σ), I s → Along step G s es → run step s es = some s' → I s'
  | [], s, s', hi, _, hr      => by cases hr; exact hi
  | e :: es, s, s', hi, hg, hr => by
    obtain ⟨t, ht, hrt⟩ := run_cons hr
    exact run_invariant_along hstep es t s' (hstep s e t hi hg.1 ht) (hg.2 t ht) hrt

theorem along_true : ∀ (es : List ε) (s : σ), Along step (fun _ _ => True) s es
  | [], _      => trivial
  | _ :: es, _ => ⟨trivial, fun s' _ => along_true es s'⟩

/-- **What holds at the start and is kept by every step holds at the end of every run.** -/
theorem run_invariant {I : σ → Prop} (hstep : ∀ s e s', I s → step s e = some s' → I s') (es : List ε) (s s' : σ)
    (hi : I s) (hr : run step s es = some s') : I s' :=
  run_invariant_along (fun s e s' h _ he => hstep s e s' h he) es s s' hi (along_true es s) hr

/-! ## Histories -/

variable {τ : Type}

/-- What the steps of a run put down, `f` for each step, in their order. -/
def history (step : σ → ε → Option σ) (f : σ → ε → List τ) : σ → List ε → List τ
  | _, []      => []
  | s, e :: es => f s e ++ (step s e).elim [] (fun s' => history step f s' es)

/-- **What ties the state to the history and is kept by every step ties them at the end of every run.** -/
theorem run_history {f : σ → ε → List τ} {R : List τ → σ → Prop}
    (hstep : ∀ L s e s', R L s → step s e = some s' → R (L ++ f s e) s') :
    ∀ (es : List ε) (L : List τ) (s s' : σ), R L s → run step s es = some s' → R (L ++ history step f s es) s'
  | [], L, s, s', hr, h      => by
    cases h
    rw [history, List.append_nil]
    exact hr
  | e :: es, L, s, s', hr, h => by
    obtain ⟨t, ht, hrun⟩ := run_cons h
    have hrest := run_history hstep es (L ++ f s e) t s' (hstep L s e t hr ht) hrun
    rw [history, ht, Option.elim_some, ← List.append_assoc]
    exact hrest

/-! ## Lists of threads -/

theorem set_getElem? {ts : List τ} {i : Nat} {c c' : τ} (hc : ts[i]? = some c) (j : Nat) (d : τ) :
    (ts.set i c')[j]? = some d ↔ j = i ∧ d = c' ∨ j ≠ i ∧ ts[j]? = some d := by
  have hi : i < ts.length := (List.getElem?_eq_some_iff.1 hc).1
  rw [List.getElem?_set]
  by_cases hj : i = j
  · subst hj
    simp only [if_true, if_pos hi, Option.some.injEq, ne_eq, not_true_eq_false, false_and, or_false, true_and]
    exact eq_comm
  · simp only [hj, if_false, ne_eq, Ne.symm hj, not_false_eq_true, true_and, false_and, false_or]

theorem snoc_getElem? {ts : List τ} {c d : τ} {j : Nat} (hd : (ts ++ [c])[j]? = some d) :
    ts[j]? = some d ∨ j = ts.length ∧ d = c := by
  rcases Nat.lt_or_ge j ts.length with hj | hj
  · rw [List.getElem?_append_left hj] at hd
    exact .inl hd
  · rw [List.getElem?_append_right hj] at hd
    cases hk : j - ts.length with
    | zero => rw [hk] at hd; cases hd; exact .inr ⟨by omega, rfl⟩
    | succ k => rw [hk] at hd; cases hd

end Run
end Vip
