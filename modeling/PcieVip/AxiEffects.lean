import PcieVip.AxiSlave
/-!
# AxiEffects — what the writes of `axi_lite_slave_model` set off

Two facts about the clocked slave.  Its pulses: `doorbell_pulse` is cleared at every edge and set by a write to 0x1000,
but `dma_doorbell_pulse` is cleared by the reset alone, so it is a pulse only if nothing follows the first write to
0x1054 (`pulses_single_iff`).  Its addresses: of the 16 address bits of the BAR 13 are decoded, so a register answers at
its offset and at seven more (`documented_iff`).
-/
namespace Vip
namespace Alex
namespace Axi

open Serve

/-- The 13 address bits that the slave decodes. -/
def offset (a : BitVec 64) : Nat := a.toNat % 2 ^ 13

/-! ## Pulses -/

/-- A clock edge: the write that it executes, and the two pulses in the cycle after it. -/
structure Tick where
  exec : Option Write
  bell : Bool
  dma  : Bool
  deriving DecidableEq, Repr

def tick (s : Axi) (i : Pins) : Axi × Tick :=
  (s.clock i, ⟨(s.obs i).exec, (s.clock i).doorbellPulse, (s.clock i).dmaDoorbellPulse⟩)

def Tick.writes (t : Tick) (off : Nat) : Bool := t.exec.any (fun x => offset x.1 == off)

/-- As many cycles with the pulse as writes to the offset, each the one after its write. -/
structure Single (off : Nat) (pulse : Tick → Bool) (ts : List Tick) : Prop where
  count : ts.countP pulse = ts.countP (Tick.writes · off)
  next  : ∀ t ∈ ts, pulse t = t.writes off

theorem single_iff (off : Nat) (pulse : Tick → Bool) (ts : List Tick) :
    Single off pulse ts ↔ ∀ t ∈ ts, pulse t = t.writes off := by
  refine ⟨Single.next, fun h => ⟨List.countP_congr (fun t ht => ?_), h⟩⟩
  rw [h t ht]

section Edge

variable (s : Axi) (i : Pins)

theorem pulse_axiWrite (r : Slave) (a : BitVec 64) (wdata : BitVec 32) (wstrb : BitVec 4) :
    (r.axiWrite a wdata wstrb).pulse = (offset a == 0x1000) := by
  unfold Slave.axiWrite offset
  split
  · rename_i d hd
    rw [← dwAt_eq_some_iff.1 hd]
    cases d <;> rfl
  · rename_i hnone
    have hne : a.toNat % 2 ^ 13 ≠ 0x1000 := by
      intro h
      rw [h] at hnone
      cases hnone
    exact (beq_eq_false_iff_ne.2 hne).symm

theorem dwAt_eq_tail (a : BitVec 64) : (dwAt (a.toNat % 2 ^ 13) == some .descTail) = (offset a == 0x1054) := by
  rw [Bool.eq_iff_iff, beq_iff_eq, beq_iff_eq, dwAt_eq_some_iff]
  exact eq_comm

theorem tick_bell : (s.tick i).2.bell = (s.tick i).2.writes 0x1000 := by
  simp only [tick, clock, obs, Tick.writes, pulse_axiWrite]
  cases s.executes <;> rfl

theorem tick_dma : (s.tick i).2.dma = (s.dmaDoorbellPulse || (s.tick i).2.writes 0x1054) := by
  simp only [tick, clock, obs, Tick.writes, dwAt_eq_tail]
  cases s.executes <;> rfl

theorem exec_clock (j : Pins) (h : (s.obs i).exec ≠ none) : ((s.clock i).obs j).exec = none := by
  have hx : s.executes = true := by
    cases hs : s.executes with
    | true  => rfl
    | false => simp [obs, hs] at h
  have hpend : (s.clock i).awPending = false := by
    simp only [clock, hx, if_true]
  simp [obs, executes, hpend]

end Edge

theorem dma_next_iff : ∀ (is : List Pins) (s : Axi), s.dmaDoorbellPulse = false →
    ((∀ t ∈ outputs tick s is, t.dma = t.writes 0x1054) ↔
      ∀ t ∈ (outputs tick s is).dropLast, t.writes 0x1054 = false)
  | [], _, _      => ⟨fun _ t ht => (by cases ht), fun _ t ht => (by cases ht)⟩
  | [i], s, hs    => by
    refine iff_of_true (fun t ht => ?_) (fun t ht => (by cases ht))
    rw [List.mem_singleton.1 ht, tick_dma, hs, Bool.false_or]
  | i :: j :: is, s, hs => by
    have hdrop : (outputs tick s (i :: j :: is)).dropLast =
        (s.tick i).2 :: (outputs tick (s.tick i).1 (j :: is)).dropLast := rfl
    rw [hdrop, outputs, List.forall_mem_cons, List.forall_mem_cons, tick_dma, hs, Bool.false_or]
    cases hw : (s.tick i).2.writes 0x1054 with
    | false =>
      have hnext : (s.tick i).1.dmaDoorbellPulse = false := by
        have hdma := tick_dma s i
        rw [hs, hw] at hdma
        exact hdma
      rw [and_iff_right rfl, and_iff_right rfl]
      exact dma_next_iff (j :: is) (s.tick i).1 hnext
    | true  =>
      -- the pulse is up in the next cycle too, which executes nothing
      have hdma := tick_dma s i
      rw [hs, hw] at hdma
      have hexec : (s.obs i).exec ≠ none := by
        intro hnone
        simp [tick, Tick.writes, hnone] at hw
      have hquiet : ((s.tick i).1.tick j).2.writes 0x1054 = false := by
        simp only [tick, Tick.writes, exec_clock s i j hexec]
        rfl
      refine iff_of_false (fun h => ?_) (fun h => (by cases h.1))
      have hup := h.2 ((s.tick i).1.tick j).2 (by rw [outputs]; exact List.mem_cons_self)
      rw [tick_dma, hquiet, show (s.tick i).1.dmaDoorbellPulse = true from hdma] at hup
      cases hup

/-- **The doorbells are single pulses exactly if the last edge of the trace is the only one to execute a write to the
tail register.** -/
theorem pulses_single_iff (is : List Pins) :
    (Single 0x1000 Tick.bell (outputs tick {} is) ∧ Single 0x1054 Tick.dma (outputs tick {} is)) ↔
      ∀ t ∈ (outputs tick {} is).dropLast, t.writes 0x1054 = false := by
  have hbell : ∀ (is : List Pins) (s : Axi), ∀ t ∈ outputs tick s is, t.bell = t.writes 0x1000 := by
    intro is
    induction is with
    | nil          => exact fun s t ht => (by cases ht)
    | cons i is ih =>
      intro s t ht
      rcases List.mem_cons.1 ht with rfl | ht
      · exact tick_bell s i
      · exact ih _ t ht
  rw [single_iff, single_iff, and_iff_right (hbell is {})]
  exact dma_next_iff is {} rfl

def tailWrites : List Pins :=
  let write : Pins := { awaddr := 0x1054, awvalid := true, wdata := 1, wstrb := 0xf, wvalid := true, bready := true }
  let wait : Pins := { bready := true }
  [write, wait, wait, write, wait, wait, wait]

/-- Two writes to the tail register make one long pulse. -/
theorem tail_pulse_stays :
    (outputs tick {} tailWrites).countP (Tick.writes · 0x1054) = 2 ∧ (outputs tick {} tailWrites).countP Tick.dma = 6 ∧
      ¬ Single 0x1054 Tick.dma (outputs tick {} tailWrites) := by
  have hwrites : (outputs tick {} tailWrites).countP (Tick.writes · 0x1054) = 2 := by decide +kernel
  have hpulses : (outputs tick {} tailWrites).countP Tick.dma = 6 := by decide +kernel
  refine ⟨hwrites, hpulses, fun h => ?_⟩
  have hcount := h.count
  rw [hwrites, hpulses] at hcount
  cases hcount

/-! ## Addresses -/

/-- The documented offsets that can be written: CC, AQA, ASQ, ACQ, SQ0TDBL and the descriptor ring. -/
def writable : List Nat :=
  [0x14, 0x24, 0x28, 0x2c, 0x30, 0x34, 0x1000, 0x1040, 0x1044, 0x1048, 0x104c, 0x1050, 0x1054, 0x1058, 0x105c]

def readable : List Nat :=
  [0x0, 0x14, 0x1c, 0x24, 0x28, 0x2c, 0x30, 0x34, 0x1040, 0x1044, 0x1048, 0x104c, 0x1050, 0x1054, 0x1058, 0x105c]

/-- The edge changes this DW or fires its doorbell. -/
def Touches (s : Axi) (i : Pins) (d : Dw) : Prop :=
  (s.clock i).slave.word d ≠ s.slave.word d ∨ (d = .doorbell ∧ (s.clock i).doorbellPulse = true) ∨
    (d = .descTail ∧ s.dmaDoorbellPulse = false ∧ (s.clock i).dmaDoorbellPulse = true)

/-- An edge touches nothing but the register that is written, at a documented offset, and CSTS with CC.  Any other
write and any other read answers DECERR, and such a write leaves the registers as they are. -/
structure Documented (s : Axi) (i : Pins) : Prop where
  touched : ∀ d, Touches s i d → s.executes = true ∧ s.awaddr.toNat ∈ writable ∧
    (d.address = s.awaddr.toNat ∨ (d = .csts ∧ s.awaddr.toNat = Dw.cc.address))
  refused : s.executes = true → s.awaddr.toNat ∉ writable →
    (s.clock i).bresp = axilDecerr ∧ (s.clock i).slave = s.slave
  reads   : (i.arvalid && s.arready) = true → i.araddr.toNat ∉ readable → (s.clock i).rresp = axilDecerr

theorem mem_writable {n : Nat} : n ∈ writable ↔ ∃ d : Dw, d.address = n ∧ d.isValidWrite = true := by
  constructor
  · intro h
    have hall : ∀ n ∈ writable, (dwAt n).any Dw.isValidWrite = true := by decide
    obtain ⟨d, hd, hv⟩ := (Option.any_eq_true _ _).1 (hall n h)
    exact ⟨d, dwAt_eq_some_iff.1 hd, hv⟩
  · rintro ⟨d, rfl, hv⟩
    cases d <;> first | decide | cases hv

theorem mem_readable {n : Nat} : n ∈ readable ↔ ∃ d : Dw, d.address = n ∧ d.isValidRead = true := by
  constructor
  · intro h
    have hall : ∀ n ∈ readable, (dwAt n).any Dw.isValidRead = true := by decide
    obtain ⟨d, hd, hv⟩ := (Option.any_eq_true _ _).1 (hall n h)
    exact ⟨d, dwAt_eq_some_iff.1 hd, hv⟩
  · rintro ⟨d, rfl, hv⟩
    cases d <;> first | decide | cases hv

section Write

variable (r : Slave) {a : BitVec 64} (wdata : BitVec 32) (wstrb : BitVec 4)

theorem axiWrite_taken {d : Dw} (hd : d.address = offset a) (hv : d.isValidWrite = true) :
    r.axiWrite a wdata wstrb = ⟨axilOkay, r.store d wdata wstrb, d == .doorbell⟩ := by
  have hat : dwAt (a.toNat % 2 ^ 13) = some d := dwAt_eq_some_iff.2 hd
  unfold Slave.axiWrite
  rw [hat]
  exact if_pos hv

theorem axiWrite_refused (h : offset a ∉ writable) : r.axiWrite a wdata wstrb = ⟨axilDecerr, r, false⟩ := by
  unfold Slave.axiWrite
  split
  · rename_i d hd
    exact if_neg (fun hv => h (mem_writable.2 ⟨d, dwAt_eq_some_iff.1 hd, hv⟩))
  · rfl

theorem axiRead_taken (h : offset a ∈ readable) : (r.axiRead a).2 = axilOkay := by
  obtain ⟨d, hd, hv⟩ := mem_readable.1 h
  have hat : dwAt (a.toNat % 2 ^ 13) = some d := dwAt_eq_some_iff.2 hd
  unfold Slave.axiRead
  rw [hat]
  exact congrArg Prod.snd (if_pos hv)

theorem axiRead_refused (h : offset a ∉ readable) : (r.axiRead a).2 = axilDecerr := by
  unfold Slave.axiRead
  split
  · rename_i d hd
    rw [if_neg (fun hv => h (mem_readable.2 ⟨d, dwAt_eq_some_iff.1 hd, hv⟩))]
  · rfl

theorem word_store {d e : Dw} (hv : d.isValidWrite = true) (h : (r.store d wdata wstrb).word e ≠ r.word e) :
    e = d ∨ (e = .csts ∧ d = .cc) := by
  refine Classical.byContradiction (fun hne => h ?_)
  obtain ⟨hed, hcc⟩ := not_or.1 hne
  exact word_store_other r hv hed hcc wdata wstrb

end Write

section Edge

variable (s : Axi) (i : Pins)

theorem touches_offset {d : Dw} (h : Touches s i d) :
    s.executes = true ∧ offset s.awaddr ∈ writable ∧
      (d.address = offset s.awaddr ∨ (d = .csts ∧ offset s.awaddr = Dw.cc.address)) := by
  have hx : s.executes = true := by
    cases hs : s.executes with
    | true  => rfl
    | false =>
      rcases h with h | ⟨-, h⟩ | ⟨-, hlow, h⟩
      · simp [clock, hs] at h
      · simp [clock, hs] at h
      · simp [clock, hs, hlow] at h
  rcases h with h | ⟨rfl, h⟩ | ⟨rfl, hlow, h⟩
  · simp only [clock, hx, if_true] at h
    by_cases hw : offset s.awaddr ∈ writable
    · obtain ⟨e, he, hv⟩ := mem_writable.1 hw
      rw [axiWrite_taken _ _ _ he hv] at h
      rcases word_store _ _ _ hv h with rfl | ⟨rfl, rfl⟩
      · exact ⟨hx, hw, .inl he⟩
      · exact ⟨hx, hw, .inr ⟨rfl, he.symm⟩⟩
    · rw [axiWrite_refused _ _ _ hw] at h
      exact absurd rfl h
  · simp only [clock, hx, Bool.true_and, pulse_axiWrite, beq_iff_eq] at h
    rw [h]
    exact ⟨hx, by decide, .inl rfl⟩
  · simp only [clock, hx, hlow, Bool.false_or, Bool.true_and, dwAt_eq_tail, beq_iff_eq] at h
    rw [h]
    exact ⟨hx, by decide, .inl rfl⟩

theorem offset_of_lt {a : BitVec 64} (h : a.toNat < 2 ^ 13) : offset a = a.toNat := Nat.mod_eq_of_lt h

theorem not_mem_of_le {offsets : List Nat} (hall : ∀ n ∈ offsets, n < 2 ^ 13) {n : Nat} (h : 2 ^ 13 ≤ n) :
    n ∉ offsets := fun hn => absurd (hall n hn) (Nat.not_lt.2 h)

/-- **Registers answer at their documented offsets alone exactly if no aliased address is accessed.** -/
theorem documented_iff :
    Documented s i ↔
      (s.executes = true → s.awaddr.toNat < 2 ^ 13 ∨ offset s.awaddr ∉ writable) ∧
        ((i.arvalid && s.arready) = true → i.araddr.toNat < 2 ^ 13 ∨ offset i.araddr ∉ readable) := by
  constructor
  · intro h
    refine ⟨fun hx => or_iff_not_imp_left.2 (fun hhigh hw => ?_), fun har => or_iff_not_imp_left.2 (fun hhigh hr => ?_)⟩
    · obtain ⟨d, hd, hv⟩ := mem_writable.1 hw
      have hresp := (h.refused hx (not_mem_of_le (by decide) (Nat.not_lt.1 hhigh))).1
      simp only [clock, hx, if_true, axiWrite_taken _ _ _ hd hv] at hresp
      cases hresp
    · have hresp := h.reads har (not_mem_of_le (by decide) (Nat.not_lt.1 hhigh))
      simp only [clock, har, if_true, axiRead_taken _ hr] at hresp
      cases hresp
  · rintro ⟨hw, hr⟩
    refine ⟨fun d hd => ?_, fun hx hnot => ?_, fun har hnot => ?_⟩
    · obtain ⟨hx, hmem, hown⟩ := touches_offset s i hd
      have hlow := (hw hx).resolve_right (not_not_intro hmem)
      rw [offset_of_lt hlow] at hmem hown
      exact ⟨hx, hmem, hown⟩
    · have hoff : offset s.awaddr ∉ writable := by
        rcases hw hx with hlow | hoff
        · rwa [offset_of_lt hlow]
        · exact hoff
      simp only [clock, hx, if_true, axiWrite_refused _ _ _ hoff, and_self]
    · have hoff : offset i.araddr ∉ readable := by
        rcases hr har with hlow | hoff
        · rwa [offset_of_lt hlow]
        · exact hoff
      simp only [clock, har, if_true]
      exact axiRead_refused _ hoff

end Edge

/-- CC, written eight KiB above its offset. -/
theorem alias_written :
    let s : Axi := { awPending := true, awaddr := 0x2014, wPending := true, wdata := 1, wstrb := 0xf }
    s.awaddr.toNat < 0x10000 ∧ s.awaddr.toNat % 4 = 0 ∧ s.awaddr.toNat ∉ writable ∧ (s.clock {}).slave.cc = 1 ∧
      ¬ Documented s {} := by
  intro s
  refine ⟨by decide, by decide, by decide, by decide +kernel, fun h => ?_⟩
  have hresp := (h.refused rfl (by decide)).1
  exact absurd hresp (by decide +kernel)

end Axi
end Alex
end Vip
