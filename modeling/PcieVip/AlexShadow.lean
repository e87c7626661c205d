import PcieVip.AlexBar
import PcieVip.LibRun
/-!
# AlexShadow — the main loop's copies of the registers

The main loop keeps its own copies of the queue and DMA registers, and changes them by exact address and whole value
where the RTL decodes 13 address bits and stores enabled bytes.  They stay the same as long as every write that reaches
one of these registers is a write of the whole register, or of a whole half, at its own address (`shadows_track`).
-/
namespace Vip
namespace Alex

open Bytes Ics Run Verilator Word

/-! ## The loop -/

structure Loop (τ : Type) where
  shadow : Shadow
  sim    : Sim τ

variable {τ : Type}

def loopStep (fab : Fabric) (host : HostSide τ) (s : Loop τ) (msg : Message) : Option (Loop τ) :=
  let h := handle (env fab host) s.shadow msg s.sim
  some ⟨h.shadow, h.env⟩

structure Tracks (v : Shadow) (r : Slave) : Prop where
  asq        : v.asq.toBitVec = r.asq
  acq        : v.acq.toBitVec = r.acq
  descBase   : v.descBase.toBitVec = r.descBase
  cplBase    : v.cplBase.toBitVec = r.cplBase
  descCount  : v.descCount.toBitVec = r.descCount
  dmaControl : v.dmaControl.toBitVec = r.dmaControl

/-- A naturally aligned write request of the 64 KiB BAR. -/
structure BarWrite (msg : Message) : Prop where
  type    : msg.header.isType .mmioWriteReq = true
  length  : msg.header.transferLen.toNat = msg.payload.length
  size    : msg.payload.length ∈ lengths
  aligned : msg.header.address.toNat % msg.payload.length = 0
  bar     : msg.header.address.toNat < 0x10000

/-! ## The condition -/

/-- The DWs of which the loop keeps a copy. -/
def Dw.tracked : Dw → Bool
  | .asqLo      => true
  | .asqHi      => true
  | .acqLo      => true
  | .acqHi      => true
  | .descBaseLo => true
  | .descBaseHi => true
  | .cplBaseLo  => true
  | .cplBaseHi  => true
  | .descCount  => true
  | .dmaControl => true
  | _           => false

def Apart (address : UInt64) (n : Nat) : Prop :=
  (∀ d, reached address.toNat = some d → d.tracked = false) ∧
    (n = 8 → ∀ d, reached (address.toNat + 4) = some d → d.tracked = false)

/-- No bit of the old upper half is missing from the new one. -/
def Covers (base data : UInt64) : Prop := (base &&& (0xffffffff00000000 : UInt64)) ||| data = data

/-- The write reaches no copied register, or is a whole one at its own address.  A base register written in one piece
keeps the bits of its old upper half. -/
def Whole (v : Shadow) (msg : Message) : Prop :=
  let address := msg.header.address
  let n := msg.payload.length
  let data := decodeLe msg.payload
  Apart address n ∨
    n = 4 ∧ (address = 0x1040 ∨ address = 0x1044 ∨ address = 0x1048 ∨ address = 0x104c ∨ address = 0x1050 ∨
      address = 0x105c) ∨
    n = 8 ∧ (address = 0x28 ∨ address = 0x30 ∨ address = 0x1050 ∨ (address = 0x1040 ∧ Covers v.descBase data) ∨
      (address = 0x1048 ∧ Covers v.cplBase data))

/-! ## What a request does to the copies and the registers -/

theorem env_keeps (fab : Fabric) (host : HostSide τ) (h : Harness) : (env fab host).Keeps (fun s => s.harness = h) :=
  ⟨fun _ _ _ _ _ _ hs => hs, fun _ _ _ _ _ hs => hs, fun _ _ _ _ _ hs => hs⟩

theorem tailDoorbell_spec (fab : Fabric) (host : HostSide τ) (v : Shadow) (address data : UInt64) (s : Sim τ) :
    let d := v.tailDoorbell (env fab host) address data s
    d.2.2.harness = s.harness ∧ ∀ r, Tracks v r → Tracks d.1 r := by
  unfold Shadow.tailDoorbell
  split
  · exact ⟨(env_keeps fab host s.harness).runGenericDma _ _ _ _ _ rfl, fun r h => { h with }⟩
  · exact ⟨rfl, fun _ h => h⟩

theorem loopStep_write {fab : Fabric} {host : HostSide τ} {s s' : Loop τ} {msg : Message} (hmsg : BarWrite msg)
    (h : loopStep fab host s msg = some s') :
    let n := UInt32.ofNat msg.payload.length
    let a := s.sim.harness.mmio fab true msg.header.address n (decodeLe msg.payload)
    s'.sim.harness.slave = a.2.slave ∧
      ∀ r, Tracks (s.shadow.assign msg.header.address (decodeLe msg.payload)) r → Tracks s'.shadow r := by
  have hlen : (if msg.header.transferLen ≠ 0 then msg.header.transferLen else UInt32.ofNat msg.payload.length) =
      UInt32.ofNat msg.payload.length := by
    split
    · rw [← hmsg.length, UInt32.ofNat_toNat]
    · rfl
  have hreset : msg.header.isType .resetReq = false := Header.isType_of_ne hmsg.type (by decide)
  cases h
  simp only [handle, hreset, hmsg.type, hlen, Bool.false_eq_true, if_false, if_true, handleWrite]
  obtain ⟨htail, htracks⟩ := tailDoorbell_spec fab host (s.shadow.assign msg.header.address (decodeLe msg.payload))
    msg.header.address (decodeLe msg.payload) _
  refine ⟨?_, htracks⟩
  rw [sq0Doorbell_slave, htail]
  rfl

/-! ## A write that reaches no copied register -/

theorem Tracks.store {v : Shadow} {r : Slave} (h : Tracks v r) {d : Dw} (hd : d.tracked = false) (wdata : BitVec 32)
    (wstrb : BitVec 4) : Tracks v (r.store d wdata wstrb) := by
  cases d <;> first | exact { h with } | cases hd

theorem Tracks.memWrite {v : Shadow} {r : Slave} (h : Tracks v r) (fab : Fabric) {address : BitVec 64}
    (ha : ∀ d, reached address.toNat = some d → d.tracked = false) (length : Nat) (data : BitVec 32) :
    Tracks v (r.memWrite fab (makeTlp true address length data)).slave := by
  rw [memWrite_makeTlp]
  split
  · rename_i d hd
    split
    · exact h.store (ha d hd) _ _
    · exact h
  · exact h

theorem Tracks.mmio_apart {v : Shadow} {s : Harness} (h : Tracks v s.slave) (fab : Fabric) {address : UInt64}
    {n : Nat} (hn : n ∈ lengths) (hbar : address.toNat < 0x10000) (ha : Apart address n) (data : UInt64) :
    Tracks v (s.mmio fab true address (UInt32.ofNat n) data).2.slave := by
  have hn' := mem_lengths.1 hn
  by_cases h8 : n = 8
  · subst h8
    have hnat := toNat_add_four address (by omega)
    rw [show UInt32.ofNat 8 = 8 from rfl, mmio_write_two]
    refine (h.memWrite fab ha.1 4 _).memWrite fab ?_ 4 _
    rw [hnat]
    exact ha.2 rfl
  · have hshort : UInt32.ofNat n = 1 ∨ UInt32.ofNat n = 2 ∨ UInt32.ofNat n = 4 := by
      rcases hn' with rfl | rfl | rfl | rfl
      · exact .inl rfl
      · exact .inr (.inl rfl)
      · exact .inr (.inr rfl)
      · exact absurd rfl h8
    rw [mmio_write_one fab s address data hshort]
    exact h.memWrite fab ha.1 _ _

theorem Tracks.assign_apart {v : Shadow} {r : Slave} (h : Tracks v r) {address : UInt64} {n : Nat}
    (ha : Apart address n) (data : UInt64) : Tracks (v.assign address data) r := by
  have hne : ∀ (d : Dw) (x : UInt64), d.tracked = true → d.address = x.toNat → address ≠ x := by
    rintro d x hd hx rfl
    have hmod := address_mod d
    have hfalse := ha.1 d (reached_of_address (by omega))
    rw [hd] at hfalse
    cases hfalse
  rw [Shadow.assign, if_neg (hne .asqLo 0x28 rfl rfl), if_neg (hne .acqLo 0x30 rfl rfl),
    if_neg (hne .descBaseLo 0x1040 rfl rfl), if_neg (hne .descBaseHi 0x1044 rfl rfl),
    if_neg (hne .cplBaseLo 0x1048 rfl rfl), if_neg (hne .cplBaseHi 0x104c rfl rfl),
    if_neg (hne .descCount 0x1050 rfl rfl), if_neg (hne .dmaControl 0x105c rfl rfl)]
  exact h

/-! ## A write of a whole register -/

theorem hi_decodeLe {p : List UInt8} (hp : p.length = 4) : hi (decodeLe p).toBitVec = 0 := by
  apply eq_of_byteAt (n := 4) rfl
  intro k hk
  rw [byteAt_hi _ hk, byteAt_decodeLe (by omega)]
  have hnone : p.getD (4 + k) 0 = 0 := by
    simp [List.getD_eq_getElem?_getD, List.getElem?_eq_none (show p.length ≤ 4 + k by omega)]
  rw [hnone]
  have : ∀ k < 4, (0 : UInt8).toBitVec = byteAt (0 : BitVec 32) k := by decide
  exact this k hk

section Whole

variable {v : Shadow} {s : Harness} (h : Tracks v s.slave) (fab : Fabric) (data : UInt64)
include h

theorem Tracks.write_dw (hdata : hi data.toBitVec = 0) {address : UInt64}
    (ha : address = 0x1040 ∨ address = 0x1044 ∨ address = 0x1048 ∨ address = 0x104c ∨ address = 0x1050 ∨
      address = 0x105c) : Tracks (v.assign address data) (s.mmio fab true address 4 data).2.slave := by
  rcases ha with rfl | rfl | rfl | rfl | rfl | rfl
  · rw [mmio_write_dw fab s data (d := .descBaseLo) rfl rfl]
    refine { h with descBase := ?_ }
    change (v.descBase.toBitVec &&& 0xffffffff00000000#64) ||| data.toBitVec =
      join (hi s.slave.descBase) (lo data.toBitVec)
    rw [and_hi_or hdata, h.descBase]
  · rw [mmio_write_dw fab s data (d := .descBaseHi) rfl rfl]
    refine { h with descBase := ?_ }
    change (v.descBase.toBitVec &&& 0xffffffff#64) ||| (data.toBitVec <<< 32) =
      join (lo data.toBitVec) (lo s.slave.descBase)
    rw [and_lo_or, h.descBase]
  · rw [mmio_write_dw fab s data (d := .cplBaseLo) rfl rfl]
    refine { h with cplBase := ?_ }
    change (v.cplBase.toBitVec &&& 0xffffffff00000000#64) ||| data.toBitVec =
      join (hi s.slave.cplBase) (lo data.toBitVec)
    rw [and_hi_or hdata, h.cplBase]
  · rw [mmio_write_dw fab s data (d := .cplBaseHi) rfl rfl]
    refine { h with cplBase := ?_ }
    change (v.cplBase.toBitVec &&& 0xffffffff#64) ||| (data.toBitVec <<< 32) =
      join (lo data.toBitVec) (lo s.slave.cplBase)
    rw [and_lo_or, h.cplBase]
  · rw [mmio_write_dw fab s data (d := .descCount) rfl rfl]
    exact { h with descCount := setWidth_eq_lo data.toBitVec }
  · rw [mmio_write_dw fab s data (d := .dmaControl) rfl rfl]
    exact { h with dmaControl := setWidth_eq_lo data.toBitVec }

theorem Tracks.write_qw {address : UInt64}
    (ha : address = 0x28 ∨ address = 0x30 ∨ address = 0x1050 ∨ (address = 0x1040 ∧ Covers v.descBase data) ∨
      (address = 0x1048 ∧ Covers v.cplBase data)) :
    Tracks (v.assign address data) (s.mmio fab true address 8 data).2.slave := by
  have hjoin : ∀ x : BitVec 64, join (hi data.toBitVec) (lo (join (hi x) (lo data.toBitVec))) = data.toBitVec := by
    intro x
    rw [lo_join, join_hi_lo]
  rcases ha with rfl | rfl | rfl | ⟨rfl, hc⟩ | ⟨rfl, hc⟩
  · rw [mmio_write_qw fab s data (d := .asqLo) (e := .asqHi) rfl rfl rfl rfl]
    exact { h with asq := (hjoin _).symm }
  · rw [mmio_write_qw fab s data (d := .acqLo) (e := .acqHi) rfl rfl rfl rfl]
    exact { h with acq := (hjoin _).symm }
  · rw [mmio_write_qw fab s data (d := .descCount) (e := .descTail) rfl rfl rfl rfl]
    exact { h with descCount := setWidth_eq_lo data.toBitVec }
  · rw [mmio_write_qw fab s data (d := .descBaseLo) (e := .descBaseHi) rfl rfl rfl rfl]
    exact { h with descBase := (congrArg UInt64.toBitVec hc).trans (hjoin _).symm }
  · rw [mmio_write_qw fab s data (d := .cplBaseLo) (e := .cplBaseHi) rfl rfl rfl rfl]
    exact { h with cplBase := (congrArg UInt64.toBitVec hc).trans (hjoin _).symm }

end Whole

/-! ## Every run -/

/-- **A request that meets the condition keeps the copies true.** -/
theorem loopStep_tracks {fab : Fabric} {host : HostSide τ} {s s' : Loop τ} {msg : Message} (hmsg : BarWrite msg)
    (hwhole : Whole s.shadow msg) (h : Tracks s.shadow s.sim.harness.slave)
    (hstep : loopStep fab host s msg = some s') : Tracks s'.shadow s'.sim.harness.slave := by
  obtain ⟨hslave, htracks⟩ := loopStep_write hmsg hstep
  rw [hslave]
  apply htracks
  rcases hwhole with hapart | ⟨hn, ha⟩ | ⟨hn, ha⟩
  · exact (h.assign_apart hapart _).mmio_apart fab hmsg.size hmsg.bar hapart _
  · rw [hn]
    exact h.write_dw fab _ (hi_decodeLe hn) ha
  · rw [hn]
    exact h.write_qw fab _ ha

def Loop.init (seen : Bool) (t : τ) : Loop τ := ⟨{}, ⟨{}, seen⟩, t⟩

/-- **The copies are the registers after every request**, in every run of writes that each meet the condition, whatever
the host answers to the DMA they start. -/
theorem shadows_track (fab : Fabric) (host : HostSide τ) (seen : Bool) (t : τ) (es : List Message) (s : Loop τ)
    (h : Along (loopStep fab host) (fun s msg => BarWrite msg ∧ Whole s.shadow msg) (Loop.init seen t) es)
    (hrun : run (loopStep fab host) (Loop.init seen t) es = some s) : Tracks s.shadow s.sim.harness.slave := by
  refine run_invariant_along (I := fun s => Tracks s.shadow s.sim.harness.slave) ?_ es _ s ?_ h hrun
  · intro s msg s' htracks hmsg hstep
    exact loopStep_tracks hmsg.1 hmsg.2 htracks hstep
  · exact ⟨rfl, rfl, rfl, rfl, rfl, rfl⟩

def HostSide.silent : HostSide Unit where
  sendRequestToHost _ _ _ _ _ s := (none, s)
  sendResponse _ _ s := s
  dmaRead _ _ _ _ s := (false, s)
  dmaWrite _ _ _ _ s := (false, s)
  reset s := s
  simTime _ := 0

/-- ASQ in one write, the descriptor base in two, the count and the control register. -/
theorem shadows_track_program :
    let es := [barWrite 0x28 [0, 0, 1, 0, 0, 0, 0, 0], barWrite 0x1040 [0, 0, 2, 0], barWrite 0x1044 [1, 0, 0, 0],
      barWrite 0x1050 [2, 0, 0, 0], barWrite 0x105c [1, 0, 0, 0]]
    ∃ s, run (loopStep Fabric.plain HostSide.silent) (Loop.init false ()) es = some s ∧
      s.shadow.asq = 0x10000 ∧ s.shadow.descBase = 0x100020000 ∧ Tracks s.shadow s.sim.harness.slave := by
  intro es
  have hbar : ∀ msg ∈ es, BarWrite msg := by
    intro msg hmsg
    simp only [es, List.mem_cons, List.not_mem_nil, or_false] at hmsg
    rcases hmsg with rfl | rfl | rfl | rfl | rfl <;> exact ⟨by decide, by decide, by decide, by decide, by decide⟩
  have halong : Along (loopStep Fabric.plain HostSide.silent) (fun s msg => BarWrite msg ∧ Whole s.shadow msg)
      (Loop.init false ()) es := by
    refine ⟨⟨hbar _ (by simp [es]), .inr (.inr ⟨rfl, .inl rfl⟩)⟩, ?_⟩
    rintro _ ⟨⟩
    refine ⟨⟨hbar _ (by simp [es]), .inr (.inl ⟨rfl, by decide⟩)⟩, ?_⟩
    rintro _ ⟨⟩
    refine ⟨⟨hbar _ (by simp [es]), .inr (.inl ⟨rfl, by decide⟩)⟩, ?_⟩
    rintro _ ⟨⟩
    refine ⟨⟨hbar _ (by simp [es]), .inr (.inl ⟨rfl, by decide⟩)⟩, ?_⟩
    rintro _ ⟨⟩
    refine ⟨⟨hbar _ (by simp [es]), .inr (.inl ⟨rfl, by decide⟩)⟩, ?_⟩
    rintro _ ⟨⟩
    trivial
  refine ⟨_, rfl, by decide, by decide, ?_⟩
  exact shadows_track Fabric.plain HostSide.silent false () es _ halong rfl

/-- A write to the upper half of ASQ reaches the register and not its copy. -/
theorem shadows_lost_upper_half :
    ∃ (es : List Message) (s : Loop Unit), (∀ msg ∈ es, BarWrite msg) ∧
      run (loopStep Fabric.plain HostSide.silent) (Loop.init false ()) es = some s ∧
      ¬ Tracks s.shadow s.sim.harness.slave := by
  refine ⟨[barWrite 0x2c [1, 0, 0, 0]], _, ?_, rfl, fun h => absurd h.asq (by decide)⟩
  intro msg hmsg
  rw [List.mem_singleton.1 hmsg]
  exact ⟨by decide, by decide, by decide, by decide, by decide⟩

end Alex
end Vip
