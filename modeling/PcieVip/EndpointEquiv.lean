import PcieVip.DoorbellDma
import PcieVip.LibServe
/-!
# EndpointEquiv — the software model beside the SystemVerilog model

`SoftwareEndpointModel` says of itself that it implements the register semantics of `mini_ics_endpoint_model` over
`nvme_register_model`.  Over aligned accesses of four or eight bytes the two are told apart by the accesses that decode
a register with the other's width, and by the reads of the queue registers; on all others they stay in step
(`software_matches_rtl_iff`).
-/
namespace Vip
namespace Endpoint

open Alex Bytes Ics Serve Verilator

/-! ## What the host sees -/

/-- A response by its outcome and its payload, a request by its type and its address. -/
inductive Seen where
  | response (ok : Bool) (payload : List UInt8)
  | request (type : MessageType) (address : UInt64)
  deriving DecidableEq, Repr

def Out.seen : Out → Seen
  | .response h payload       => .response (h.isStatus .success) payload
  | .request type address _ _ => .request type address

/-- An aligned access of four or eight bytes, a write with as many bytes as it announces. -/
structure Access (msg : Message) : Prop where
  aligned : msg.header.address.toNat % 4 = 0
  kind    : (msg.header.isType .mmioReadReq = true ∧ (msg.header.transferLen = 4 ∨ msg.header.transferLen = 8)) ∨
    (msg.header.isType .mmioWriteReq = true ∧ msg.header.transferLen.toNat = msg.payload.length ∧
      (msg.payload.length = 4 ∨ msg.payload.length = 8))

/-- No read of a queue register, and writes of each register's own width. -/
structure Shared (msg : Message) : Prop where
  read : msg.header.isType .mmioReadReq = true → msg.header.address ≠ kAdminSqReg ∧ msg.header.address ≠ kAdminCqReg
  dw   : msg.header.isType .mmioWriteReq = true →
    msg.header.address = kCcReg ∨ msg.header.address = kAqaReg ∨ msg.header.address = kSq0Doorbell →
    msg.payload.length = 4
  qw   : msg.header.isType .mmioWriteReq = true →
    msg.header.address = kAdminSqReg ∨ msg.header.address = kAdminCqReg → msg.payload.length = 8

structure InStep (s : Software) (r : NvmeRegs) : Prop where
  cc   : s.cc = r.cc
  csts : s.csts = r.csts
  aqa  : s.aqa = r.aqa
  asq  : s.asq = r.asq
  acq  : s.acq = r.acq
  idle : s.doorbellRung = false

/-! ## Reads -/

theorem Software.load_eq (s : Software) {msg : Message}
    (hlen : msg.header.transferLen = 4 ∨ msg.header.transferLen = 8) :
    s.load msg = match s.register? msg.header.address with
      | none   => (.errorInvalidAddress, [])
      | some v => (.success, encodeLe v.toUInt64 msg.header.transferLen) := by
  have hzero : msg.header.transferLen ≠ 0 := by rcases hlen with h | h <;> rw [h] <;> decide
  have hbad : ¬ (msg.header.transferLen ≠ 1 ∧ msg.header.transferLen ≠ 2 ∧ msg.header.transferLen ≠ 4 ∧
      msg.header.transferLen ≠ 8) := by
    rintro ⟨-, -, h4, h8⟩
    exact hlen.elim h4 h8
  cases hreg : s.register? msg.header.address with
  | none   =>
    simp only [Software.load, hreg, hzero, hbad, if_false, Option.isNone_none, if_true, ite_self]
    rfl
  | some v =>
    have hvalid : addrValid msg.header.address msg.header.transferLen = true := by
      unfold Software.register? at hreg
      rcases hlen with h | h <;> rw [h] <;> split_ifs at hreg with h1 h2 h3 h4 <;> simp only [*] <;> decide
    simp only [Software.load, hreg, hzero, hbad, if_false, hvalid, Bool.not_true, Bool.false_eq_true,
      Option.isNone_some, if_true, Option.getD_some]

theorem InStep.read {s : Software} {r : NvmeRegs} (h : InStep s r) {addr : UInt64} (hsq : addr ≠ kAdminSqReg)
    (hcq : addr ≠ kAdminCqReg) :
    r.read addr = match s.register? addr with
      | none   => { addrInvalid := true }
      | some v => { rdata := v.toUInt64 } := by
  by_cases hcsts : addr = kCstsReg
  · rw [hcsts, Software.register?, if_pos rfl, h.csts]
    rfl
  by_cases hcc : addr = kCcReg
  · rw [hcc, Software.register?, if_neg (by decide), if_pos rfl, h.cc]
    rfl
  by_cases haqa : addr = kAqaReg
  · rw [haqa, Software.register?, if_neg (by decide), if_neg (by decide), if_pos rfl, h.aqa]
    rfl
  by_cases hcap : addr = kCapReg
  · rw [hcap]
    rfl
  rw [Software.register?, if_neg hcsts, if_neg hcc, if_neg haqa, if_neg hcap, NvmeRegs.read, if_neg hcap, if_neg hcc,
    if_neg hcsts, if_neg haqa, if_neg hsq, if_neg hcq, ite_self]

theorem read_queue (s : Software) (r : NvmeRegs) {addr : UInt64} (h : addr = kAdminSqReg ∨ addr = kAdminCqReg) :
    s.register? addr = none ∧ (r.read addr).addrInvalid = false := by
  rcases h with rfl | rfl <;> exact ⟨rfl, rfl⟩

theorem rdata_bytes (v : UInt64) {n : UInt32} (hn : n = 4 ∨ n = 8) :
    (List.range n.toNat).map (fun i => if i < 8 then (v >>> (8 * UInt64.ofNat i)).toUInt8 else 0) = encodeLe v n := by
  apply List.map_congr_left
  intro i hi
  have hi : i < n.toNat := List.mem_range.1 hi
  have hn8 : n.toNat ≤ 8 := by rcases hn with rfl | rfl <;> decide
  rw [if_pos (by omega)]

/-! ## Writes -/

theorem payloadBytes_eq (undef : Undef) {payload : List UInt8} {length : UInt32} (h : length.toNat = payload.length) :
    payloadBytes undef payload length = payload := by
  apply List.ext_getElem?
  intro i
  rw [payloadBytes, List.getElem?_map, h]
  by_cases hi : i < payload.length
  · simp [hi]
  · simp [hi]

theorem toUInt32_decodeLe {p : List UInt8} (hp : p.length = 4) : (decodeLe p).toUInt32 = decodeU32 p := by
  apply UInt32.toNat_inj.1
  have hlt := leNat_lt p
  rw [UInt64.toNat_toUInt32, decodeLe_eq, decodeU32, getU32_eq, List.take_of_length_le (by omega),
    List.take_of_length_le (by omega)]
  rw [hp] at hlt
  exact Nat.mod_eq_of_lt hlt

theorem decodeLe_eq_decodeU64 (p : List UInt8) : decodeLe p = decodeU64 p := by
  apply UInt64.toNat_inj.1
  rw [decodeLe_eq, decodeU64, getU64_eq]

theorem and_one_toUInt32 (v : UInt64) : v &&& 1 ≠ 0 ↔ v.toUInt32 &&& 1 ≠ 0 := by
  rw [Ne, Ne, ← UInt64.toNat_inj, ← UInt32.toNat_inj, UInt64.toNat_and, UInt32.toNat_and, UInt64.toNat_toUInt32]
  change ¬ v.toNat &&& 1 = 0 ↔ ¬ v.toNat % 2 ^ 32 &&& 1 = 0
  rw [Nat.and_one_is_mod, Nat.and_one_is_mod]
  omega

structure SameWrite (x : StatusCode × Software) (w : RegRsp × NvmeRegs) : Prop where
  outcome  : x.1 = if w.1.addrInvalid then .errorInvalidAddress else .success
  doorbell : x.2.doorbellRung = w.1.doorbell
  regs     : InStep { x.2 with doorbellRung := false } w.2

section Write

variable {s : Software} {r : NvmeRegs} (h : InStep s r) {payload : List UInt8}
include h

/-- **A write of a register's own width does the same in both**, and one that reaches no register is refused by both. -/
theorem InStep.write {addr : UInt64} (hlen : payload.length = 4 ∨ payload.length = 8)
    (hdw : addr = kCcReg ∨ addr = kAqaReg ∨ addr = kSq0Doorbell → payload.length = 4)
    (hqw : addr = kAdminSqReg ∨ addr = kAdminCqReg → payload.length = 8) :
    SameWrite (s.store addr payload) (r.write addr (decodeLe payload)) := by
  unfold Software.store
  dsimp only
  by_cases hcc : addr = kCcReg
  · have h4 := hdw (.inl hcc)
    subst hcc
    rw [show UInt32.ofNat payload.length = 4 by rw [h4]; rfl, if_neg (by decide), if_pos ⟨rfl, rfl⟩,
      ← toUInt32_decodeLe h4]
    refine ⟨rfl, h.idle, { h with cc := rfl, csts := ?_, idle := rfl }⟩
    change (if (decodeLe payload).toUInt32 &&& 1 ≠ 0 then s.csts ||| 1 else s.csts &&& ~~~1) =
      if decodeLe payload &&& 1 ≠ 0 then r.csts ||| 1 else r.csts &&& ~~~1
    simp only [and_one_toUInt32, h.csts]
  by_cases haqa : addr = kAqaReg
  · have h4 := hdw (.inr (.inl haqa))
    subst haqa
    rw [show UInt32.ofNat payload.length = 4 by rw [h4]; rfl]
    exact ⟨rfl, h.idle, { h with aqa := (toUInt32_decodeLe h4).symm, idle := rfl }⟩
  by_cases hbell : addr = kSq0Doorbell
  · have h4 := hdw (.inr (.inr hbell))
    subst hbell
    rw [show UInt32.ofNat payload.length = 4 by rw [h4]; rfl]
    exact ⟨rfl, rfl, { h with idle := rfl }⟩
  by_cases hsq : addr = kAdminSqReg
  · have h8 := hqw (.inl hsq)
    subst hsq
    rw [show UInt32.ofNat payload.length = 8 by rw [h8]; rfl]
    exact ⟨rfl, h.idle, { h with asq := (decodeLe_eq_decodeU64 payload).symm, idle := rfl }⟩
  by_cases hcq : addr = kAdminCqReg
  · have h8 := hqw (.inr hcq)
    subst hcq
    rw [show UInt32.ofNat payload.length = 8 by rw [h8]; rfl]
    exact ⟨rfl, h.idle, { h with acq := (decodeLe_eq_decodeU64 payload).symm, idle := rfl }⟩
  have hbad : ¬ (UInt32.ofNat payload.length ≠ 4 ∧ UInt32.ofNat payload.length ≠ 8) := by
    rintro ⟨h4, h8⟩
    rcases hlen with hl | hl
    · exact h4 (by rw [hl]; rfl)
    · exact h8 (by rw [hl]; rfl)
  simp only [hcc, haqa, hbell, hsq, hcq, hbad, false_and, if_false, ite_self]
  have hwrite : r.write addr (decodeLe payload) = ({ addrInvalid := true }, r) := by
    rw [NvmeRegs.write, if_neg hcc, if_neg haqa, if_neg hsq, if_neg hcq, if_neg hbell, ite_self]
  rw [hwrite]
  exact ⟨rfl, h.idle, { h with idle := rfl }⟩

end Write

theorem write_other_width (s : Software) (r : NvmeRegs) {addr : UInt64} {payload : List UInt8}
    (h : (payload.length = 8 ∧ (addr = kCcReg ∨ addr = kAqaReg ∨ addr = kSq0Doorbell)) ∨
      (payload.length = 4 ∧ (addr = kAdminSqReg ∨ addr = kAdminCqReg))) (wdata : UInt64) :
    (s.store addr payload).1 = .errorInvalidAddress ∧ (r.write addr wdata).1.addrInvalid = false := by
  unfold Software.store
  dsimp only
  rcases h with ⟨h8, ha⟩ | ⟨h4, ha⟩
  · rw [show UInt32.ofNat payload.length = 8 by rw [h8]; rfl]
    rcases ha with rfl | rfl | rfl <;> exact ⟨rfl, rfl⟩
  · rw [show UInt32.ofNat payload.length = 4 by rw [h4]; rfl]
    rcases ha with rfl | rfl <;> exact ⟨rfl, rfl⟩

/-! ## One request -/

abbrev swStep := serve Out.seen Software.handle

abbrev svStep (undef : Undef) := serve Out.seen (NvmeRegs.pollAndDispatch undef)

section Read

variable {msg : Message} (hr : msg.header.isType .mmioReadReq = true) (answers : List (Option Message))
include hr

theorem swStep_read (s : Software) :
    swStep s (msg, answers) = (s.tick 15, [.response (decide ((s.load msg).1 = .success)) (s.load msg).2]) := by
  have hreset : msg.header.isType .resetReq = false := Header.isType_of_ne hr (by decide)
  have hwrite : msg.header.isType .mmioWriteReq = false := Header.isType_of_ne hr (by decide)
  simp only [serve, Software.handle, hreset, hwrite, hr, Bool.false_eq_true, if_false, if_true,
    Software.handleMmioRead, Script.sendResponse, List.nil_append, List.map_cons, List.map_nil, Out.seen,
    isStatus_makeHeader]
  rfl

theorem svStep_read (undef : Undef) (r : NvmeRegs) :
    svStep undef r (msg, answers) =
      (r, [if (r.read msg.header.address).addrInvalid then .response false []
        else .response true ((List.range msg.header.transferLen.toNat).map (fun i =>
          if i < 8 then ((r.read msg.header.address).rdata >>> (8 * UInt64.ofNat i)).toUInt8 else 0))]) := by
  have hwrite : msg.header.isType .mmioWriteReq = false := Header.isType_of_ne hr (by decide)
  simp only [serve, NvmeRegs.pollAndDispatch, hwrite, hr, Bool.false_eq_true, if_false, if_true,
    NvmeRegs.handleMmioRead]
  split
  · simp only [miniIcsSendResponse, Script.sendResponse, List.nil_append, List.map_cons, List.map_nil, Out.seen,
      isStatus_makeHeader]
    rfl
  · simp only [miniIcsSendResponse, Script.sendResponse, List.nil_append, List.map_cons, List.map_nil, Out.seen,
      isStatus_makeHeader]
    rfl

end Read

section Write

variable {msg : Message} (hw : msg.header.isType .mmioWriteReq = true) (answers : List (Option Message))
include hw

theorem swStep_write (s : Software) :
    let x := (s.tick 15).store msg.header.address msg.payload
    (∃ t, (swStep s (msg, answers)).1 = { x.2 with simTime := t, doorbellRung := false }) ∧
      (swStep s (msg, answers)).2 = .response (decide (x.1 = .success)) [] ::
        (if x.2.doorbellRung then (dmaTrace x.2.asq x.2.acq answers).map Out.seen else []) := by
  have hreset : msg.header.isType .resetReq = false := Header.isType_of_ne hw (by decide)
  obtain ⟨hs, hlog⟩ := (s.tick 15).handleMmioWrite_spec msg ⟨answers, []⟩
  simp only [serve, Software.handle, hreset, hw, Bool.false_eq_true, if_false, if_true]
  refine ⟨hs, ?_⟩
  rw [hlog, List.nil_append, List.map_cons, Out.seen, isStatus_makeHeader, apply_ite (List.map Out.seen)]
  rfl

theorem svStep_write (undef : Undef) (r : NvmeRegs) (hlen : msg.header.transferLen.toNat = msg.payload.length) :
    let w := r.write msg.header.address (decodeLe msg.payload)
    (svStep undef r (msg, answers)).1 = w.2 ∧
      (svStep undef r (msg, answers)).2 = .response (decide (w.1.addrInvalid = false)) [] ::
        (if w.1.doorbell then (dmaTrace w.2.asq w.2.acq answers).map Out.seen else []) := by
  obtain ⟨hs, hlog⟩ := r.handleMmioWrite_spec msg.header.txnId msg.header.address msg.payload ⟨answers, []⟩
  simp only [serve, NvmeRegs.pollAndDispatch, hw, if_true, payloadBytes_eq undef hlen]
  refine ⟨hs, ?_⟩
  rw [hlog, List.nil_append, List.map_cons, Out.seen, isStatus_makeHeader, apply_ite (List.map Out.seen)]
  cases (r.write msg.header.address (decodeLe msg.payload)).1.addrInvalid <;> rfl

end Write

/-- **An access that both decode alike keeps them in step**, with the same outputs. -/
theorem InStep.step (undef : Undef) {s : Software} {r : NvmeRegs} (h : InStep s r) {msg : Message}
    (answers : List (Option Message)) (ha : Access msg) (hs : Shared msg) :
    InStep (swStep s (msg, answers)).1 (svStep undef r (msg, answers)).1 ∧
      (swStep s (msg, answers)).2 = (svStep undef r (msg, answers)).2 := by
  rcases ha.kind with ⟨hr, hlen⟩ | ⟨hw, hpay, hlen⟩
  · obtain ⟨hsq, hcq⟩ := hs.read hr
    rw [swStep_read hr, svStep_read hr, s.load_eq hlen, h.read hsq hcq]
    refine ⟨{ h with }, ?_⟩
    cases s.register? msg.header.address with
    | none   => rfl
    | some v => simp [rdata_bytes v.toUInt64 hlen]
  · have hsame := InStep.write (s := s.tick 15) { h with } hlen (hs.dw hw) (hs.qw hw)
    obtain ⟨⟨t, hsw⟩, hswOut⟩ := swStep_write hw answers s
    obtain ⟨hsv, hsvOut⟩ := svStep_write hw answers undef r hpay
    rw [hsw, hsv, hswOut, hsvOut, hsame.outcome, hsame.doorbell, show _ = _ from hsame.regs.asq,
      show _ = _ from hsame.regs.acq]
    refine ⟨{ hsame.regs with }, ?_⟩
    cases (r.write msg.header.address (decodeLe msg.payload)).1.addrInvalid <;> rfl

/-- **Any other access tells them apart**: the software model refuses it and the RTL takes it. -/
theorem step_ne (undef : Undef) (s : Software) (r : NvmeRegs) {msg : Message} (answers : List (Option Message))
    (ha : Access msg) (hs : ¬ Shared msg) : (swStep s (msg, answers)).2 ≠ (svStep undef r (msg, answers)).2 := by
  rcases ha.kind with ⟨hr, hlen⟩ | ⟨hw, hpay, hlen⟩
  · have hqueue : msg.header.address = kAdminSqReg ∨ msg.header.address = kAdminCqReg := by
      refine Classical.byContradiction (fun hq => hs ?_)
      have hwrite := Header.isType_of_ne hr (show MessageType.mmioReadReq ≠ .mmioWriteReq by decide)
      rw [not_or] at hq
      refine ⟨fun _ => hq, fun hw => ?_, fun hw => ?_⟩
      · rw [hwrite] at hw
        cases hw
      · rw [hwrite] at hw
        cases hw
    obtain ⟨hnone, hvalid⟩ := read_queue s r hqueue
    rw [swStep_read hr, svStep_read hr, s.load_eq hlen, hnone, hvalid]
    simp
  · have hother : (msg.payload.length = 8 ∧ (msg.header.address = kCcReg ∨ msg.header.address = kAqaReg ∨
        msg.header.address = kSq0Doorbell)) ∨
        (msg.payload.length = 4 ∧ (msg.header.address = kAdminSqReg ∨ msg.header.address = kAdminCqReg)) := by
      refine Classical.byContradiction (fun ho => hs ?_)
      have hread := Header.isType_of_ne hw (show MessageType.mmioWriteReq ≠ .mmioReadReq by decide)
      rw [not_or] at ho
      refine ⟨fun hr => ?_, fun _ hdw => ?_, fun _ hqw => ?_⟩
      · rw [hread] at hr
        cases hr
      · exact hlen.resolve_right (fun h8 => ho.1 ⟨h8, hdw⟩)
      · exact hlen.resolve_left (fun h4 => ho.2 ⟨h4, hqw⟩)
    obtain ⟨herr, hvalid⟩ := write_other_width (s.tick 15) r hother (decodeLe msg.payload)
    rw [(swStep_write hw answers s).2, (svStep_write hw answers undef r hpay).2, herr, hvalid]
    simp

/-! ## Every sequence -/

/-- **The software model stands in for the RTL exactly on the accesses that both decode alike.**  From reset, over every
sequence of aligned accesses of four or eight bytes and whatever the host answers, the two give the same responses and
ask for the same DMA if and only if no access reads a queue register or writes a register in the other's width. -/
theorem software_matches_rtl_iff (undef : Undef) (is : List (Message × List (Option Message)))
    (h : ∀ i ∈ is, Access i.1) :
    outputs swStep {} is = outputs (svStep undef) {} is ↔ ∀ i ∈ is, Shared i.1 := by
  refine outputs_eq_iff_of_sim (R := InStep) (D := fun i => Access i.1) (P := fun i => Shared i.1) ?_ ?_ is _ _ h ?_
  · intro s r i hin ha hs
    exact hin.step undef i.2 ha hs
  · intro s r i _ ha hs
    exact step_ne undef s r i.2 ha hs
  · exact ⟨rfl, rfl, rfl, rfl, rfl, rfl⟩

/-- The controller is enabled, its queues are set and the doorbell is rung. -/
theorem software_matches_rtl_iff_doorbell :
    let is := [(barWrite 0x14 [1, 0, 0, 0], []), (barWrite 0x28 [0, 0, 1, 0, 0, 0, 0, 0], []), (barRead 0x1c 4, []),
      (barWrite 0x1000 [1, 0, 0, 0], [answer .dmaReadRsp .success, answer .dmaWriteRsp .success])]
    outputs swStep {} is = outputs (svStep (fun _ _ => 0)) {} is := by
  intro is
  have hin : ∀ i ∈ is, Access i.1 ∧ Shared i.1 := by
    intro i hi
    simp only [is, List.mem_cons, List.not_mem_nil, or_false] at hi
    rcases hi with rfl | rfl | rfl | rfl <;> exact ⟨⟨by decide, by decide⟩, by decide, by decide, by decide⟩
  exact (software_matches_rtl_iff _ is (fun i hi => (hin i hi).1)).2 (fun i hi => (hin i hi).2)

/-- ASQ cannot be read in the software model. -/
theorem software_differs_from_rtl :
    ∃ is : List (Message × List (Option Message)), (∀ i ∈ is, Access i.1) ∧
      outputs swStep {} is ≠ outputs (svStep (fun _ _ => 0)) {} is := by
  refine ⟨[(barRead 0x28 8, [])], ?_, by decide⟩
  intro i hi
  rw [List.mem_singleton.1 hi]
  exact ⟨by decide, by decide⟩

end Endpoint
end Vip
