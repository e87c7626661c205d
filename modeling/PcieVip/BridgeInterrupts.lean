import PcieVip.RunBridge
/-!
# BridgeInterrupts — when the endpoint behind the cocotb bridge sends its interrupt

Any number of `dma_demo` tasks run beside each other and beside `serve`, and their messages mix on the connection.
Each interrupt is still one demo's, after that demo's own command read and completion write were both answered with
success, in this order.
-/
namespace Vip
namespace Bridge

open Ics (MessageType)
open Bytes Log Run

/-! ## A demo and its calls -/

def Args.IsRead (a : Args) : Prop := a.msgType = code .dmaReadReq ∧ a.payload = [] ∧ a.transferLen = 64

def Args.IsCompletion (a : Args) : Prop := a.msgType = code .dmaWriteReq ∧ a.payload = completion ∧ a.transferLen = 16

def State.Asked (s : State) (i : Nat) (P : Args → Prop) (since : Nat) : Prop :=
  ∃ c, s.calls[i]? = some c ∧ P c.args ∧ c.since = since

/-- The call returned the message with this number, a response to it that says success. -/
def State.Acked (s : State) (i k : Nat) : Prop :=
  ∃ c m, s.calls[i]? = some c ∧ c.pc = .returned k ∧ s.received[k]? = some m ∧ m.answers c.txn = true ∧
    m.header.status = 0

def State.Wrote (s : State) (i p : Nat) : Prop := ∃ w, s.written[p]? = some w ∧ w.source = .request i

/-- A command was read and answered, then a completion was written. -/
def State.Writing (s : State) (i i' q' : Nat) : Prop :=
  ∃ since since' k q, s.Asked i Args.IsRead since ∧ s.Acked i k ∧ s.Wrote i q ∧ s.Asked i' Args.IsCompletion since' ∧
    k < since' ∧ s.Wrote i' q' ∧ q < q'

/-- And that was answered too, before the interrupt. -/
def State.Signalled (s : State) (g : Signal) : Prop :=
  ∃ k' q', s.Writing g.read g.write q' ∧ s.Acked g.write k' ∧ q' < g.place ∧ s.written[g.place]? = some ⟨.bare, msix⟩

theorem State.Asked.grow {s t : State} (hg : Grows s t) {i : Nat} {P : Args → Prop} {since : Nat}
    (h : s.Asked i P since) : t.Asked i P since := by
  obtain ⟨c, hc, hp, hsince⟩ := h
  obtain ⟨d, hd, hargs, -, hs, -⟩ := hg.calls i c hc
  exact ⟨d, hd, hargs ▸ hp, hs.trans hsince⟩

theorem State.Acked.grow {s t : State} (hg : Grows s t) {i k : Nat} (h : s.Acked i k) : t.Acked i k := by
  obtain ⟨c, m, hc, hpc, hm, hans, hst⟩ := h
  obtain ⟨d, hd, -, htxn, -, hret⟩ := hg.calls i c hc
  exact ⟨d, m, hd, hret k hpc, prefix_getElem? hg.received hm, htxn ▸ hans, hst⟩

theorem State.Wrote.grow {s t : State} (hg : Grows s t) {i p : Nat} (h : s.Wrote i p) : t.Wrote i p := by
  obtain ⟨w, hw, hsrc⟩ := h
  exact ⟨w, prefix_getElem? hg.written hw, hsrc⟩

theorem State.Writing.grow {s t : State} (hg : Grows s t) {i i' q' : Nat} (h : s.Writing i i' q') :
    t.Writing i i' q' := by
  obtain ⟨since, since', k, q, ha, hk, hw, ha', hlt, hw', hq⟩ := h
  exact ⟨since, since', k, q, ha.grow hg, hk.grow hg, hw.grow hg, ha'.grow hg, hlt, hw'.grow hg, hq⟩

theorem State.Signalled.grow {s t : State} (hg : Grows s t) {g : Signal} (h : s.Signalled g) : t.Signalled g := by
  obtain ⟨k', q', hw, hk, hq, hp⟩ := h
  exact ⟨k', q', hw.grow hg, hk.grow hg, hq, prefix_getElem? hg.written hp⟩

/-- The calls that a demo is at or signalled after; one that gave up has none. -/
def Demo.calls (d : Demo) : List Nat :=
  match d.pc with
  | .reading i    => [i]
  | .writing i i' => [i, i']
  | _             => d.signal.elim [] (fun g => [g.read, g.write])

structure Demo.Keeps (d : Demo) (s : State) : Prop where
  reading : ∀ i, d.pc = .reading i → ∃ since q, s.Asked i Args.IsRead since ∧ s.Wrote i q
  writing : ∀ i i', d.pc = .writing i i' → ∃ q', s.Writing i i' q'
  silent  : d.signal ≠ none → d.pc = .signalling ∨ d.pc = .ended
  signal  : ∀ g, d.signal = some g → s.Signalled g

theorem Demo.Keeps.grow {d : Demo} {s t : State} (hg : Grows s t) (h : d.Keeps s) : d.Keeps t := by
  refine ⟨fun i hi => ?_, fun i i' hi => ?_, h.silent, fun g hs => (h.signal g hs).grow hg⟩
  · obtain ⟨since, q, ha, hw⟩ := h.reading i hi
    exact ⟨since, q, ha.grow hg, hw.grow hg⟩
  · obtain ⟨q', hw⟩ := h.writing i i' hi
    exact ⟨q', hw.grow hg⟩

def Msg.isDoorbell (m : Msg) : Bool := !m.isResponse && m.isType .mmioWriteReq && m.header.address == 0x1000

structure Rings (s : Rig) : Prop where
  matched   : Matched s.bridge
  demos     : ∀ (j : Nat) (d : Demo), s.demos[j]? = some d → d.Keeps s.bridge
  calls     : ∀ (j : Nat) (d : Demo), s.demos[j]? = some d → ∀ i ∈ d.calls, i < s.bridge.calls.length
  own       : ∀ (j j' : Nat) (d d' : Demo) (i : Nat), s.demos[j]? = some d → s.demos[j']? = some d' → i ∈ d.calls →
    i ∈ d'.calls → j = j'
  places    : ∀ (j j' : Nat) (d d' : Demo) (g g' : Signal), s.demos[j]? = some d → s.demos[j']? = some d' →
    d.signal = some g → d'.signal = some g' → g.place = g'.place → j = j'
  bare      : ∀ (p : Nat) (w : Write), s.bridge.written[p]? = some w → w.source = .bare →
    ∃ (j : Nat) (d : Demo) (g : Signal), s.demos[j]? = some d ∧ d.signal = some g ∧ g.place = p
  doorbells : s.demos.length = s.bridge.received.countP Msg.isDoorbell
  keys      : ∀ a, (s.regs.regs a).isSome = true ↔ a = 0 ∨ a = 0x14 ∨ a = 0x1c

theorem Grows.length_le {s t : State} (h : Grows s t) : s.calls.length ≤ t.calls.length := by
  refine Nat.le_of_not_lt (fun hlt => ?_)
  obtain ⟨d, hd, -⟩ := h.calls _ _ (List.getElem?_eq_getElem hlt)
  exact absurd (List.getElem?_eq_some_iff.1 hd).1 (Nat.lt_irrefl _)

theorem rings_init : Rings {} where
  matched   := matched_init
  demos     := fun _ _ h => by cases h
  calls     := fun _ _ h => by cases h
  own       := fun _ _ _ _ _ h => by cases h
  places    := fun _ _ _ _ _ _ h => by cases h
  bare      := fun _ _ h => by cases h
  doorbells := rfl
  keys      := fun a => by
    dsimp only
    split_ifs <;> simp_all

theorem fresh_keeps (s : State) : Demo.fresh.Keeps s :=
  ⟨fun _ h => (by cases h), fun _ _ h => (by cases h), fun h => absurd rfl h, fun _ h => by cases h⟩

theorem spawn_getElem? {ds : List Demo} {n j : Nat} {d : Demo} (h : (ds ++ List.replicate n Demo.fresh)[j]? = some d) :
    ds[j]? = some d ∨ d = Demo.fresh := by
  rw [List.getElem?_append] at h
  split at h
  · exact .inl h
  · exact .inr (List.eq_of_mem_replicate (List.mem_of_getElem? h))

theorem Rings.quiet {s : Rig} (h : Rings s) {b : State} {regs : Regs} {n : Nat} (hq : Quiet s.bridge b) (hm : Matched b)
    (hcount : b.received.countP Msg.isDoorbell = s.bridge.received.countP Msg.isDoorbell + n)
    (hkeys : ∀ a, (regs.regs a).isSome = (s.regs.regs a).isSome) :
    Rings ⟨b, regs, s.demos ++ List.replicate n Demo.fresh⟩ where
  matched   := hm
  demos     := fun j d hd => by
    rcases spawn_getElem? hd with hd | rfl
    · exact (h.demos j d hd).grow hq.grows
    · exact fresh_keeps b
  calls     := fun j d hd i hi => by
    rcases spawn_getElem? hd with hd | rfl
    · exact Nat.lt_of_lt_of_le (h.calls j d hd i hi) hq.grows.length_le
    · cases hi
  own       := fun j j' d d' i hd hd' hi hi' => by
    rcases spawn_getElem? hd with hd | rfl
    · rcases spawn_getElem? hd' with hd' | rfl
      · exact h.own j j' d d' i hd hd' hi hi'
      · cases hi'
    · cases hi
  places    := fun j j' d d' g g' hd hd' hg hg' => by
    rcases spawn_getElem? hd with hd | rfl
    · rcases spawn_getElem? hd' with hd' | rfl
      · exact h.places j j' d d' g g' hd hd' hg hg'
      · cases hg'
    · cases hg
  bare      := fun p w hp hw => by
    rcases hq.bare p w hp with hp | hw'
    · obtain ⟨j, d, g, hd, hg⟩ := h.bare p w hp hw
      exact ⟨j, d, g, getElem?_append_of_some hd _, hg⟩
    · exact absurd hw hw'
  doorbells := by
    rw [List.length_append, List.length_replicate, h.doorbells]
    exact hcount.symm
  keys      := fun a => by
    dsimp only
    rw [hkeys]
    exact h.keys a

theorem Rings.set {s : Rig} (h : Rings s) {j : Nat} {d d' : Demo} (hj : s.demos[j]? = some d) (hd' : d'.Keeps s.bridge)
    (hcalls : ∀ i ∈ d'.calls, i < s.bridge.calls.length ∧
      (i ∈ d.calls ∨ ∀ (j' : Nat) (e : Demo), s.demos[j']? = some e → i ∉ e.calls))
    (hsignal : d'.signal = d.signal) : Rings (s.setDemo j d') where
  matched   := h.matched
  demos     := fun i e he => by
    rcases (set_getElem? hj i e).1 he with ⟨-, rfl⟩ | ⟨-, he⟩
    · exact hd'
    · exact h.demos i e he
  calls     := fun i e he k hk => by
    rcases (set_getElem? hj i e).1 he with ⟨-, rfl⟩ | ⟨-, he⟩
    · exact (hcalls k hk).1
    · exact h.calls i e he k hk
  own       := fun i i' e e' k he he' hk hk' => by
    -- what the demo has now no other one has
    have hother : ∀ (l : Nat) (f : Demo), s.demos[l]? = some f → l ≠ j → k ∈ d'.calls → k ∉ f.calls := by
      intro l f hf hl hkd hkf
      rcases (hcalls k hkd).2 with hown | hfresh
      · exact hl (h.own l j f d k hf hj hkf hown)
      · exact hfresh l f hf hkf
    rcases (set_getElem? hj i e).1 he with ⟨rfl, rfl⟩ | ⟨hi, hf⟩
    · rcases (set_getElem? hj i' e').1 he' with ⟨rfl, -⟩ | ⟨hi', hf'⟩
      · rfl
      · exact absurd hk' (hother i' e' hf' hi' hk)
    · rcases (set_getElem? hj i' e').1 he' with ⟨rfl, rfl⟩ | ⟨-, hf'⟩
      · exact absurd hk (hother i e hf hi hk')
      · exact h.own i i' e e' k hf hf' hk hk'
  places    := fun i i' e e' g g' he he' hg hg' hp => by
    rcases (set_getElem? hj i e).1 he with ⟨rfl, rfl⟩ | ⟨hi, hf⟩
    · rcases (set_getElem? hj i' e').1 he' with ⟨rfl, -⟩ | ⟨-, hf'⟩
      · rfl
      · exact h.places i i' d e' g g' hj hf' (hsignal.symm.trans hg) hg' hp
    · rcases (set_getElem? hj i' e').1 he' with ⟨rfl, rfl⟩ | ⟨-, hf'⟩
      · exact h.places i i' e d g g' hf hj hg (hsignal.symm.trans hg') hp
      · exact h.places i i' e e' g g' hf hf' hg hg' hp
  bare      := fun p w hp hw => by
    obtain ⟨i, e, g, he, hg, hpl⟩ := h.bare p w hp hw
    by_cases hi : i = j
    · subst hi
      cases he.symm.trans hj
      exact ⟨i, d', g, (set_getElem? hj i d').2 (.inl ⟨rfl, rfl⟩), hsignal.trans hg, hpl⟩
    · exact ⟨i, e, g, (set_getElem? hj i e).2 (.inr ⟨hi, he⟩), hg, hpl⟩
  doorbells := by
    rw [Rig.setDemo, List.length_set]
    exact h.doorbells
  keys      := h.keys

/-! ## What a demo's step does -/

theorem request_call (s : State) (a : Args) : ∃ c, (s.request a).calls = s.calls ++ [c] ∧ c.args = a ∧
    c.since = s.received.length ∧ (s.request a).received = s.received ∧
    (c.pc = .raised ∨ c.pc = .draining ∧ (s.request a).Wrote s.calls.length s.written.length) := by
  unfold State.request
  dsimp only
  split
  · exact ⟨_, rfl, rfl, rfl, rfl, .inr ⟨rfl, _, List.getElem?_concat_length, rfl⟩⟩
  · exact ⟨_, rfl, rfl, rfl, rfl, .inl rfl⟩

theorem ended_keeps {d : Demo} {s : State} (h : d.Keeps s) : Demo.Keeps { d with pc := .ended } s :=
  ⟨fun _ hi => (by cases hi), fun _ _ hi => (by cases hi), fun _ => .inr rfl, h.signal⟩

theorem Rings.bridge {s : Rig} (h : Rings s) {b : State} (hq : Quiet s.bridge b) (hm : Matched b)
    (hr : b.received = s.bridge.received) : Rings { s with bridge := b } := by
  have := h.quiet (n := 0) hq hm (by rw [hr]; rfl) (fun _ => rfl)
  rwa [List.replicate_zero, List.append_nil] at this

theorem Rings.end {s : Rig} (h : Rings s) {j : Nat} {d : Demo} (hj : s.demos[j]? = some d) :
    Rings (s.setDemo j { d with pc := .ended }) := by
  have hd := h.demos j d hj
  refine h.set hj (ended_keeps hd) (fun i hi => ?_) rfl
  have hmem : i ∈ d.calls := by
    cases hs : d.signal with
    | none   => simp [Demo.calls, hs] at hi
    | some g =>
      have hpc := hd.silent (by rw [hs]; exact Option.some_ne_none g)
      unfold Demo.calls at hi ⊢
      rcases hpc with hpc | hpc <;> rw [hpc] <;> exact hi
  exact ⟨h.calls j d hj i hmem, .inl hmem⟩

theorem Rings.ask {s : Rig} (h : Rings s) {j : Nat} {d : Demo} (hj : s.demos[j]? = some d) (a : Args)
    {next : Nat → DemoPc} (hcalls : ∀ i ∈ ({ d with pc := next s.bridge.calls.length } : Demo).calls,
      i ∈ d.calls ∨ i = s.bridge.calls.length)
    (hkeeps : (s.bridge.request a).Asked s.bridge.calls.length (· = a) s.bridge.received.length →
      (s.bridge.request a).Wrote s.bridge.calls.length s.bridge.written.length →
      ({ d with pc := next s.bridge.calls.length } : Demo).Keeps (s.bridge.request a)) :
    Rings (s.ask j d a next) := by
  obtain ⟨c, hc, hargs, hsince, hrec, hpc⟩ := request_call s.bridge a
  have hb := h.bridge (quiet_request s.bridge a) (h.matched.request a) hrec
  have hcall : (s.bridge.request a).calls[s.bridge.calls.length]? = some c := by
    rw [hc]
    exact List.getElem?_concat_length
  unfold Rig.ask
  dsimp only
  rcases hpc with hpc | ⟨hpc, hw⟩
  · have hf : (s.bridge.request a).failed s.bridge.calls.length = true := by simp [State.failed, hcall, hpc]
    rw [if_pos hf]
    exact hb.end hj
  · have hf : ¬ (s.bridge.request a).failed s.bridge.calls.length = true := by simp [State.failed, hcall, hpc]
    rw [if_neg hf]
    refine hb.set hj (hkeeps ⟨c, hcall, hargs, hsince⟩ hw) (fun i hi => ?_) rfl
    have hlt : s.bridge.calls.length < (s.bridge.request a).calls.length := (List.getElem?_eq_some_iff.1 hcall).1
    rcases hcalls i hi with hi | rfl
    · exact ⟨Nat.lt_trans (h.calls j d hj i hi) hlt, .inl hi⟩
    · exact ⟨hlt, .inr (fun j' e he hmem => absurd (h.calls j' e he _ hmem) (Nat.lt_irrefl _))⟩

theorem acked_of_result {s : State} (hs : Matched s) {i : Nat} {m : Msg} (h : s.result i = some m)
    (hst : m.header.status = 0) :
    ∃ k, s.Acked i k ∧ k < s.received.length := by
  unfold State.result at h
  split at h
  · rename_i c hc
    split at h
    · rename_i k hpc
      have hcalls := hs.calls i c hc
      obtain ⟨-, ⟨m', hm', hans⟩, -⟩ := firstFrom_eq_some_iff.1 (hcalls.done k (hcalls.returned k hpc))
      cases h.symm.trans hm'
      exact ⟨k, ⟨c, m, hc, hpc, h, hans, hst⟩, (List.getElem?_eq_some_iff.1 h).1⟩
    · cases h
  · cases h

theorem Rings.commandRead {s : Rig} (h : Rings s) {j i : Nat} {d : Demo} (hj : s.demos[j]? = some d)
    (hpc : d.pc = .reading i) : Rings (s.commandRead j d i) := by
  have hd := h.demos j d hj
  unfold Rig.commandRead
  split
  · rename_i m hm
    split
    · exact h.end hj
    · rename_i hst
      obtain ⟨k, hk, hklt⟩ := acked_of_result h.matched hm (not_not.1 hst)
      obtain ⟨since, q, hasked, hwrote⟩ := hd.reading i hpc
      have hsig : d.signal = none := by
        by_contra hne
        rcases hd.silent hne with hp | hp <;> rw [hpc] at hp <;> cases hp
      have hg := (quiet_request s.bridge (writeArgs s.regs)).grows
      refine h.ask hj _ (fun i' hi' => ?_) (fun ha hw => ?_)
      · simp only [Demo.calls, List.mem_cons, List.not_mem_nil, or_false, hpc] at hi' ⊢
        exact hi'
      · refine ⟨fun _ hi => (by cases hi), ?_, fun hne => absurd hsig hne, fun g hs => ?_⟩
        · rintro _ _ ⟨⟩
          obtain ⟨c, hc, hargs, hsince⟩ := ha
          have hq : q < s.bridge.written.length := by
            obtain ⟨w, hw, -⟩ := hwrote
            exact (List.getElem?_eq_some_iff.1 hw).1
          refine ⟨_, since, _, k, q, hasked.grow hg, hk.grow hg, hwrote.grow hg, ⟨c, hc, ?_, hsince⟩, hklt, hw, hq⟩
          rw [hargs]
          exact ⟨rfl, rfl, rfl⟩
        · rw [hsig] at hs
          cases hs
  · split
    · exact h.end hj
    · exact h

theorem Rings.signal {s : Rig} (h : Rings s) {j i i' q' k' : Nat} {d : Demo} (hj : s.demos[j]? = some d)
    (hpc : d.pc = .writing i i') (hw : s.bridge.Writing i i' q') (hk : s.bridge.Acked i' k') :
    Rings (Rig.setDemo { s with bridge := s.bridge.interrupt } j
      { pc := .signalling, signal := some ⟨i, i', s.bridge.written.length⟩ }) := by
  have hg : Grows s.bridge s.bridge.interrupt := Grows.of_calls rfl List.prefix_rfl (List.prefix_append _ _)
  have hcalls : d.calls = [i, i'] := by simp [Demo.calls, hpc]
  have hplace : ∀ (l : Nat) (e : Demo) (g : Signal), s.demos[l]? = some e → e.signal = some g →
      g.place < s.bridge.written.length := by
    intro l e g he hge
    obtain ⟨k, q, -, -, -, hp⟩ := (h.demos l e he).signal g hge
    exact (List.getElem?_eq_some_iff.1 hp).1
  have hq : q' < s.bridge.written.length := by
    obtain ⟨_, _, _, _, _, _, _, _, _, ⟨w, hwp, -⟩, -⟩ := hw
    exact (List.getElem?_eq_some_iff.1 hwp).1
  have hown : ∀ (l : Nat) (e : Demo) (k : Nat), s.demos[l]? = some e → k ∈ [i, i'] → k ∈ e.calls → l = j :=
    fun l e k he hk hke => h.own l j e d k he hj hke (hcalls ▸ hk)
  refine ⟨h.matched.frame _ _, ?_, ?_, ?_, ?_, ?_, ?_, h.keys⟩
  · intro l e he
    rcases (set_getElem? hj l e).1 he with ⟨rfl, rfl⟩ | ⟨-, he⟩
    · refine ⟨fun _ hi => (by cases hi), fun _ _ hi => (by cases hi), fun _ => .inl rfl, ?_⟩
      rintro g ⟨⟩
      exact ⟨k', q', hw.grow hg, hk.grow hg, hq, List.getElem?_concat_length⟩
    · exact (h.demos l e he).grow hg
  · intro l e he k hke
    rcases (set_getElem? hj l e).1 he with ⟨rfl, rfl⟩ | ⟨-, he⟩
    · exact h.calls l d hj k (hcalls ▸ hke)
    · exact h.calls l e he k hke
  · intro l l' e e' k he he' hke hke'
    rcases (set_getElem? hj l e).1 he with ⟨rfl, rfl⟩ | ⟨-, hf⟩
    · rcases (set_getElem? hj l' e').1 he' with ⟨rfl, -⟩ | ⟨-, hf'⟩
      · rfl
      · exact (hown l' e' k hf' hke hke').symm
    · rcases (set_getElem? hj l' e').1 he' with ⟨rfl, rfl⟩ | ⟨-, hf'⟩
      · exact hown l e k hf hke' hke
      · exact h.own l l' e e' k hf hf' hke hke'
  · intro l l' e e' g g' he he' hge hge' hp
    rcases (set_getElem? hj l e).1 he with ⟨rfl, rfl⟩ | ⟨-, hf⟩
    · rcases (set_getElem? hj l' e').1 he' with ⟨rfl, -⟩ | ⟨-, hf'⟩
      · rfl
      · cases hge
        exact absurd (hp ▸ hplace l' e' g' hf' hge') (Nat.lt_irrefl _)
    · rcases (set_getElem? hj l' e').1 he' with ⟨rfl, rfl⟩ | ⟨-, hf'⟩
      · cases hge'
        exact absurd (hp ▸ hplace l e g hf hge) (Nat.lt_irrefl _)
      · exact h.places l l' e e' g g' hf hf' hge hge' hp
  · intro p w hp hsrc
    rcases snoc_getElem? hp with hp | ⟨rfl, -⟩
    · obtain ⟨l, e, g, he, hge, hpl⟩ := h.bare p w hp hsrc
      refine ⟨l, e, g, (set_getElem? hj l e).2 (.inr ⟨?_, he⟩), hge, hpl⟩
      rintro rfl
      cases he.symm.trans hj
      have := (h.demos l d hj).silent (by rw [hge]; exact Option.some_ne_none g)
      rw [hpc] at this
      rcases this with hp | hp <;> cases hp
    · exact ⟨j, _, _, (set_getElem? hj j _).2 (.inl ⟨rfl, rfl⟩), rfl, rfl⟩
  · rw [Rig.setDemo, List.length_set]
    exact h.doorbells

theorem Rings.completionWritten {s : Rig} (h : Rings s) {j i i' : Nat} {d : Demo} (hj : s.demos[j]? = some d)
    (hpc : d.pc = .writing i i') : Rings (s.completionWritten j d i i') := by
  unfold Rig.completionWritten
  split
  · rename_i m hm
    split
    · rename_i hst
      obtain ⟨k', hk, -⟩ := acked_of_result h.matched hm hst
      obtain ⟨q', hw⟩ := (h.demos j d hj).writing i i' hpc
      exact h.signal hj hpc hw hk
    · exact h.end hj
  · split
    · exact h.end hj
    · exact h

theorem Rings.call {s t : Rig} (h : Rings s) {i : Nat} {e : CallEvent} (ht : s.callStep i e = some t) :
    Rings t ∧ t.demos = s.demos := by
  obtain ⟨b, hb, rfl⟩ := Option.map_eq_some_iff.1 ht
  have hm := h.matched.step hb
  simp only [step] at hb
  split at hb
  · cases hb
  · rename_i c hc
    obtain ⟨c', hc', rfl⟩ := Option.map_eq_some_iff.1 hb
    exact ⟨h.bridge (quiet_call hc hc') hm rfl, rfl⟩

theorem Rings.demo {s s' : Rig} (h : Rings s) {j : Nat} {d : Demo} {e : DemoEvent} (hj : s.demos[j]? = some d)
    (he : demoStep s j d e = some s') : Rings s' := by
  have hd := h.demos j d hj
  unfold demoStep at he
  split at he
  · rename_i hpc
    obtain rfl := Option.some.inj he
    have hsig : d.signal = none := by
      by_contra hne
      rcases hd.silent hne with hp | hp <;> rw [hpc] at hp <;> cases hp
    refine h.ask hj _ (fun i hi => ?_) (fun ha hw => ?_)
    · simp only [Demo.calls, List.mem_singleton] at hi
      exact .inr hi
    · refine ⟨?_, fun _ _ hi => (by cases hi), fun hne => absurd hsig hne, fun g hs => ?_⟩
      · rintro _ ⟨⟩
        obtain ⟨c, hc, hargs, hsince⟩ := ha
        refine ⟨_, _, ⟨c, hc, ?_, hsince⟩, hw⟩
        rw [hargs]
        exact ⟨rfl, rfl, rfl⟩
      · rw [hsig] at hs
        cases hs
  · rename_i i _ hpc
    obtain ⟨t, ht, rfl⟩ := Option.map_eq_some_iff.1 he
    obtain ⟨hr, hdemos⟩ := h.call ht
    exact hr.commandRead (hdemos ▸ hj) hpc
  · rename_i i i' _ hpc
    obtain ⟨t, ht, rfl⟩ := Option.map_eq_some_iff.1 he
    obtain ⟨hr, hdemos⟩ := h.call ht
    exact hr.completionWritten (hdemos ▸ hj) hpc
  · cases he
    exact h.end hj
  · cases he

/-! ## What the bridge receives -/

theorem send_received (s : State) (k : Nat) (h : Header) (payload : List UInt8) :
    (s.send k h payload).received = s.received := by
  unfold State.send
  split <;> rfl

theorem callback_received (s : State) (k : Nat) (m : Msg) (data : List UInt8) (status : Int) :
    (s.callback k m data status).received = s.received := by
  unfold State.callback
  repeat' split
  all_goals first | exact send_received _ _ _ _ | rfl

theorem send_not_calling (s : State) (k : Nat) (h : Header) (payload : List UInt8) (l : Nat) (m : Msg) :
    (s.send k h payload).serve ≠ .calling l m := by
  unfold State.send
  split <;> exact ServePc.noConfusion

theorem receive_received (s : State) (msixCb : Bool) (m : Msg) : (s.receive msixCb m).received = s.received ++ [m] := by
  unfold State.receive
  dsimp only
  repeat' split
  all_goals first | exact send_received _ _ _ _ | rfl

theorem receive_calling {s : State} (hr : s.serve = .receiving) (m : Msg) :
    (∀ k m', (s.receive false m).serve = .calling k m' → m' = m ∧ m.isResponse = false) ∧
    (m.isResponse = false → m.isType .mmioWriteReq = true → ∃ k, (s.receive false m).serve = .calling k m) := by
  unfold State.receive
  dsimp only
  split
  · rename_i hresp
    refine ⟨fun k m' hc => ?_, fun hno => by rw [hresp] at hno; cases hno⟩
    split at hc <;> rw [hr] at hc <;> cases hc
  · rename_i hresp
    have hresp := Bool.eq_false_iff.2 hresp
    split
    · refine ⟨?_, fun _ _ => ⟨_, rfl⟩⟩
      rintro k m' ⟨⟩
      exact ⟨rfl, hresp⟩
    · rename_i htype
      refine ⟨fun k m' hc => ?_, fun _ hw => absurd (by rw [hw]; simp) htype⟩
      split at hc
      · cases hc
      · split at hc
        · exact absurd hc (send_not_calling _ _ _ _ k m')
        · split at hc
          · cases hc
          · rw [hr] at hc
            cases hc

theorem countP_concat (l : List Msg) (m : Msg) :
    (l ++ [m]).countP Msg.isDoorbell = l.countP Msg.isDoorbell + if m.isDoorbell then 1 else 0 := by
  rw [List.countP_append, List.countP_singleton]

/-- The keys of `REGS` stay, so a write starts a demo exactly at the doorbell. -/
theorem acceptWrite_keys {r : Regs} (h : ∀ a, (r.regs a).isSome = true ↔ a = 0 ∨ a = 0x14 ∨ a = 0x1c) (address : Int)
    (payload : List UInt8) : (∀ a, ((acceptWrite r address payload).1.regs a).isSome = (r.regs a).isSome) ∧
      (acceptWrite r address payload).2 = decide (address = 0x1000) := by
  have hput : ∀ (q : Regs) (b : Int) (v : Nat), (q.regs b).isSome = true →
      ∀ a, ((q.put b v).regs a).isSome = (q.regs a).isSome := by
    intro q b v hb a
    unfold Regs.put
    dsimp only
    split
    · rename_i hab
      rw [hab, hb]
      rfl
    · rfl
  unfold acceptWrite
  dsimp only
  split
  · rename_i h14
    subst h14
    have h1 := hput r 0x14 (leNat payload) ((h _).2 (.inr (.inl rfl)))
    have h2 := hput (r.put 0x14 (leNat payload)) 0x1c (if leNat payload % 2 = 1 then 1 else 0)
      (by rw [h1]; exact (h _).2 (.inr (.inr rfl)))
    exact ⟨fun a => (h2 a).trans (h1 a), rfl⟩
  · split
    · rename_i hsome
      refine ⟨hput r address _ hsome, ?_⟩
      rcases (h address).1 hsome with rfl | rfl | rfl <;> rfl
    · split
      · rename_i h28
        subst h28
        exact ⟨fun _ => rfl, rfl⟩
      · split
        · rename_i h30
          subst h30
          exact ⟨fun _ => rfl, rfl⟩
        · exact ⟨fun _ => rfl, rfl⟩

theorem Rings.recv {s s' : Rig} (h : Rings s) {f : Frame} (he : rigStep s (.recv f) = some s') : Rings s' := by
  obtain ⟨b, hb, rfl⟩ := Option.map_eq_some_iff.1 he
  have hm := h.matched.step hb
  simp only [step] at hb
  split at hb
  · cases hb
  · rename_i hready
    simp only [not_or, not_not] at hready
    split at hb
    · cases hb
      exact h.bridge (quiet_serve _ _) (h.matched.frame _ _) rfl
    · rename_i hdr _
      split at hb
      · cases hb
        obtain ⟨hcall, hwrite⟩ := receive_calling hready.1 ⟨hdr, f.payload⟩
        generalize hmsg : (⟨hdr, f.payload⟩ : Msg) = m at *
        have hq := quiet_receive s.bridge false m
        have hrec := receive_received s.bridge false m
        -- without a doorbell no demo starts
        have hplain : ∀ b : State, Quiet s.bridge b → Matched b → b.received = s.bridge.received ++ [m] →
            m.isDoorbell = false → Rings { s with bridge := b } := by
          intro b hqb hmb hrb hno
          have := h.quiet (n := 0) hqb hmb (by rw [hrb, countP_concat, hno]; rfl) (fun _ => rfl)
          rwa [List.replicate_zero, List.append_nil] at this
        unfold Rig.mmio
        dsimp only
        split
        · rename_i k m' hcalling
          obtain ⟨rfl, hresp⟩ := hcall k m' hcalling
          have hqc := fun data status => hq.trans (quiet_callback (s.bridge.receive false m') k m' data status)
          have hmc := fun data status => hm.callback k m' data status
          have hrc := fun data status => (callback_received (s.bridge.receive false m') k m' data status).trans hrec
          split
          · rename_i hread
            refine hplain _ (hqc _ _) (hmc _ _) (hrc _ _) ?_
            rw [Msg.isDoorbell, isType_of_ne hread (b := .mmioWriteReq) (by decide), Bool.and_false, Bool.false_and]
          · split
            · rename_i hw
              obtain ⟨hkeys, hdemo⟩ := acceptWrite_keys h.keys m'.header.address m'.payload
              have hbell : m'.isDoorbell = (acceptWrite s.regs m'.header.address m'.payload).2 := by
                rw [hdemo, Msg.isDoorbell, hresp, hw]
                rfl
              have := h.quiet (n := if m'.isDoorbell then 1 else 0) (hqc [] 0) (hmc [] 0)
                (by rw [hrc, countP_concat]) hkeys
              rw [hbell] at this
              split at this <;> simp_all
            · rename_i hw
              refine hplain _ hq hm hrec ?_
              simp [Msg.isDoorbell, hw]
        · rename_i hidle
          refine hplain _ hq hm hrec ?_
          refine Bool.eq_false_iff.2 (fun hbell => ?_)
          simp only [Msg.isDoorbell, Bool.and_eq_true, Bool.not_eq_true'] at hbell
          obtain ⟨k, hk⟩ := hwrite hbell.1.1 hbell.1.2
          exact hidle k m hk
      · cases hb

/-- **Every step keeps the demos apart and their interrupts due.** -/
theorem Rings.step {s s' : Rig} {e : RigEvent} (h : Rings s) (he : rigStep s e = some s') : Rings s' := by
  cases e with
  | recv f     => exact h.recv he
  | eof        =>
    obtain ⟨b, hb, rfl⟩ := Option.map_eq_some_iff.1 he
    simp only [Bridge.step] at hb
    split at hb
    · cases hb
      exact h.bridge (quiet_serve _ _) (h.matched.frame _ _) rfl
    · cases hb
  | slept      =>
    simp only [rigStep] at he
    split at he
    · obtain rfl := Option.some.inj he
      exact h.bridge (quiet_callback _ _ _ _ _) (h.matched.callback _ _ _ _) (callback_received _ _ _ _ _)
    · cases he
  | drained ok =>
    obtain ⟨b, hb, rfl⟩ := Option.map_eq_some_iff.1 he
    simp only [Bridge.step] at hb
    split at hb
    · cases hb
      exact h.bridge (quiet_serve _ _) (h.matched.frame _ _) rfl
    · cases hb
  | demo j e   =>
    simp only [rigStep] at he
    split at he
    · rename_i d hd
      exact h.demo hd he
    · cases he

/-- **Every interrupt is due**: in every run each one that went out is the doing of one demo, after its command read
was answered with success, then its completion write was asked and answered with success; two demos, whether they came
to an interrupt or not, share neither an interrupt nor a call, and there are as many demos as writes to the doorbell
came in. -/
theorem interrupts_after_completion (es : List RigEvent) (s : Rig) (h : run rigStep {} es = some s) :
    (∀ (p : Nat) (w : Write), s.bridge.written[p]? = some w → w.source = .bare →
      ∃ (j : Nat) (d : Demo) (g : Signal), s.demos[j]? = some d ∧ d.signal = some g ∧ g.place = p ∧
        s.bridge.Signalled g) ∧
    (∀ (j j' : Nat) (d d' : Demo), s.demos[j]? = some d → s.demos[j']? = some d' → j ≠ j' →
      (∀ i ∈ d.calls, i ∉ d'.calls) ∧
      ∀ g g', d.signal = some g → d'.signal = some g' → g.place ≠ g'.place ∧ g.read ≠ g'.read ∧ g.write ≠ g'.write) ∧
    s.demos.length = s.bridge.received.countP Msg.isDoorbell := by
  have hs : Rings s := run_invariant (fun _ _ _ hi he => hi.step he) es {} s rings_init h
  have hcalls : ∀ (j : Nat) (d : Demo) (g : Signal), s.demos[j]? = some d → d.signal = some g →
      g.read ∈ d.calls ∧ g.write ∈ d.calls := by
    intro j d g hd hg
    have hc : d.calls = [g.read, g.write] := by
      unfold Demo.calls
      rcases (hs.demos j d hd).silent (by rw [hg]; exact Option.some_ne_none g) with hpc | hpc <;> rw [hpc, hg] <;> rfl
    rw [hc]
    exact ⟨List.mem_cons_self, List.mem_cons_of_mem _ List.mem_cons_self⟩
  refine ⟨fun p w hp hw => ?_, fun j j' d d' hd hd' hne => ?_, hs.doorbells⟩
  · obtain ⟨j, d, g, hd, hg, hpl⟩ := hs.bare p w hp hw
    exact ⟨j, d, g, hd, hg, hpl, (hs.demos j d hd).signal g hg⟩
  · have hapart : ∀ i ∈ d.calls, i ∉ d'.calls := fun i hi hi' => hne (hs.own j j' d d' i hd hd' hi hi')
    refine ⟨hapart, fun g g' hg hg' => ⟨fun hp => hne (hs.places j j' d d' g g' hd hd' hg hg' hp), ?_, ?_⟩⟩
    · intro hp
      exact hapart g.read (hcalls j d g hd hg).1 (hp ▸ (hcalls j' d' g' hd' hg').1)
    · intro hp
      exact hapart g.write (hcalls j d g hd hg).2 (hp ▸ (hcalls j' d' g' hd' hg').2)

/-- Two doorbells; the second demo's write is refused, so one interrupt goes out, after five other messages. -/
theorem interrupts_after_completion_two :
    let bell (txn : UInt64) : Frame := ⟨Qemu.micsEncodeHeader ⟨5, 0, 4, txn, 0, 0x1000, 0, 0, 4⟩, [1, 0, 0, 0]⟩
    let rsp (type : UInt16) (txn : UInt64) (status : UInt32) : Frame :=
      ⟨Qemu.micsEncodeHeader ⟨type, 1, 0, txn, 0, 0, 0, status, 0⟩, []⟩
    let es : List RigEvent :=
      [.recv (bell 2), .drained true, .recv (bell 3), .demo 1 .start, .demo 0 .start, .drained true,
        .demo 0 (.call (.drained true)), .demo 1 (.call (.drained true)), .recv (rsp 8 1 0), .recv (rsp 8 2 0),
        .demo 0 (.call .resume), .demo 1 (.call .resume), .demo 0 (.call (.drained true)),
        .demo 1 (.call (.drained true)), .recv (rsp 10 4 1), .recv (rsp 10 3 0), .demo 1 (.call .resume),
        .demo 0 (.call .resume)]
    ∃ s, run rigStep {} es = some s ∧ s.bridge.written.map (·.source) =
        [.answer 0, .answer 1, .request 0, .request 1, .request 2, .request 3, .bare] ∧
      ∃ (j : Nat) (d : Demo) (g : Signal), s.demos[j]? = some d ∧ d.signal = some g ∧ g.place = 6 ∧
        s.bridge.Signalled g := by
  intro bell rsp es
  have hrun : (run rigStep {} es).map (fun s => s.bridge.written.map (·.source))
      = some [.answer 0, .answer 1, .request 0, .request 1, .request 2, .request 3, .bare] := by
    decide +kernel
  obtain ⟨s, hs, heq⟩ := Option.map_eq_some_iff.1 hrun
  refine ⟨s, hs, heq, ?_⟩
  have hsix := congrArg (·[6]?) heq
  simp only [List.getElem?_map] at hsix
  obtain ⟨w, hw, hsrc⟩ := Option.map_eq_some_iff.1 (hsix.trans rfl)
  exact (interrupts_after_completion es s hs).1 6 w hw hsrc

end Bridge
end Vip
