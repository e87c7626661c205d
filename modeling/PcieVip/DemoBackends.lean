import PcieVip.EndpointEquiv
import PcieVip.HostDemo
import PcieVip.PayloadBound
/-!
# DemoBackends — what the demo run asks of a backend

The requests of `RunDemo`, and how a backend has to take each of them.  A `Backend` comes with the proofs that it does:
the software model, the two SystemVerilog models and the Verilator main loop are built here.
-/
namespace Vip
namespace Endpoint

open Alex Bytes HostClient Ics Verilator Word

/-! ## The contract -/

structure Good (h : Header) (t : MessageType) (payload : List UInt8) : Prop where
  type   : h.isType t = true
  status : h.isStatus .success = true
  wire   : Message.WellFormed ⟨h, payload⟩

/-- The message is answered so, and nothing else is sent. -/
def Answers {σ : Type} (handle : σ → Message → Script → σ × Script) (s : σ) (m : Message) (t : MessageType)
    (payload : List UInt8) (s' : σ) : Prop :=
  ∀ c : Script, ∃ h, Good h t payload ∧ handle s m c = (s', c.sendResponse h payload)

/-- What is asked for after the doorbell, as far as the host acknowledges it. -/
structure Asks (asq acq : UInt64) (answers : List (Option Message)) (asked : List Out) : Prop where
  read      : [readCommand asq] <+: asked
  write     : acked answers 0 = true → [readCommand asq, writeCompletion acq] <+: asked
  interrupt : acked answers 0 = true → acked answers 1 = true →
    asked = [readCommand asq, writeCompletion acq, interrupt]

/-- What the demo sees of a backend: the queue addresses, and whether the controller is ready. -/
structure Face where
  asq   : UInt64
  acq   : UInt64
  ready : Bool

structure Backend (σ : Type) where
  handle : σ → Message → Script → σ × Script
  idle   : σ → Prop
  face   : σ → Face
  grows  : ∀ s m c, c.log <+: (handle s m c).2.log
  reset  : ∀ s id now, idle s → ∃ s',
    Answers handle s (Call.request ⟨.resetReq, 0, 0, [], now⟩ id) .resetRsp [] s' ∧ idle s'
  asq    : ∀ s v id now, idle s → ∃ s',
    Answers handle s (Call.request ⟨.mmioWriteReq, kAdminSubmissionQueueBase, 0xff, encodeU64 v, now⟩ id)
      .mmioWriteRsp [] s' ∧ idle s' ∧ face s' = { face s with asq := v }
  acq    : ∀ s v id now, idle s → ∃ s',
    Answers handle s (Call.request ⟨.mmioWriteReq, kAdminCompletionQueueBase, 0xff, encodeU64 v, now⟩ id)
      .mmioWriteRsp [] s' ∧ idle s' ∧ face s' = { face s with acq := v }
  aqa    : ∀ s v id now, idle s → ∃ s',
    Answers handle s (Call.request ⟨.mmioWriteReq, kAdminQueueAttributes, 0xf, encodeU32 v, now⟩ id)
      .mmioWriteRsp [] s' ∧ idle s' ∧ face s' = face s
  enable : ∀ s id now, idle s → ∃ s',
    Answers handle s (Call.request ⟨.mmioWriteReq, kControllerConfiguration, 0xf, encodeU32 kCcEnable, now⟩ id)
      .mmioWriteRsp [] s' ∧ idle s' ∧ face s' = { face s with ready := true }
  csts   : ∀ s id now, idle s → ∃ payload s',
    Answers handle s (Call.request ⟨.mmioReadReq, kControllerStatus, 0xf, [], now⟩ id) .mmioReadRsp payload s' ∧
      idle s' ∧ face s' = face s ∧ payload.length = 4 ∧
      ((face s).ready = true → getU32 payload &&& kCstsReady ≠ 0)
  bell   : ∀ s id now c, idle s → ∃ h asked, Good h .mmioWriteRsp [] ∧
    (handle s (Call.request ⟨.mmioWriteReq, kSubmissionQueue0Doorbell, 0xf, encodeU32 1, now⟩ id) c).2.log =
      c.log ++ .response h [] :: asked ∧ Asks (face s).asq (face s).acq c.answers asked

/-! ## Headers and values -/

theorem wellFormed_makeHeader (t : MessageType) (x a b : UInt64) (st : StatusCode) (n : UInt64) (f : UInt16)
    (l : UInt32) {payload : List UInt8} (hlen : payload.length ≤ 64) :
    Message.WellFormed ⟨makeHeader t x a b st n (UInt32.ofNat payload.length) f l, payload⟩ := by
  have hval : (UInt32.ofNat payload.length).toNat = payload.length := UInt32.toNat_ofNat_of_lt' (by
    show payload.length < 2 ^ 32
    omega)
  refine ⟨⟨rfl, rfl, rfl, ?_⟩, hval.symm⟩
  rw [UInt32.le_iff_toNat_le]
  show (UInt32.ofNat payload.length).toNat ≤ 16777216
  omega

theorem isType_makeHeader (t : MessageType) (x a b : UInt64) (st : StatusCode) (n : UInt64) (p : UInt32) (f : UInt16)
    (l : UInt32) : (makeHeader t x a b st n p f l).isType t = true := beq_self_eq_true _

theorem good_makeHeader (t : MessageType) (x a n : UInt64) {payload : List UInt8} (hlen : payload.length ≤ 64)
    (l : UInt32) :
    Good (makeHeader t x a 0 .success n (UInt32.ofNat payload.length) kFlagIsResponse l) t payload :=
  ⟨isType_makeHeader .., by rw [isStatus_makeHeader]; rfl, wellFormed_makeHeader _ _ _ _ _ _ _ _ hlen⟩

theorem good_nil (t : MessageType) (x a n : UInt64) : Good (makeHeader t x a 0 .success n 0 kFlagIsResponse) t [] :=
  good_makeHeader t x a n (by decide : ([] : List UInt8).length ≤ 64) 0

theorem decodeLe_encodeU64 (v : UInt64) : decodeLe (encodeU64 v) = v := by
  apply UInt64.toNat_inj.1
  have hlen : (leBytes 8 v.toNat).length = 8 := length_leBytes ..
  rw [decodeLe_eq, encodeU64, bytes_eq v (Nat.le_refl 8), List.take_of_length_le (Nat.le_of_eq hlen)]
  exact leNat_leBytes 8 _ v.toNat_lt

theorem getU32_encodeLe (v : UInt32) : getU32 (encodeLe v.toUInt64 4) = v := by
  apply UInt32.toNat_inj.1
  have hlen : (leBytes 4 v.toNat).length = 4 := length_leBytes ..
  have hbytes : encodeLe v.toUInt64 4 = leBytes 4 v.toNat := bytes_eq v.toUInt64 (by decide : 4 ≤ 8)
  rw [getU32_eq, hbytes, List.take_of_length_le (Nat.le_of_eq hlen)]
  exact leNat_leBytes 4 _ v.toNat_lt

theorem or_one_and_one (v : UInt32) : (v ||| 1) &&& 1 ≠ 0 := by
  rw [Ne, ← UInt32.toNat_inj]
  simp [Nat.and_one_is_mod, Nat.or_mod_two_eq_one]

theorem asks_dmaTrace (asq acq : UInt64) (answers : List (Option Message)) :
    Asks asq acq answers (dmaTrace asq acq answers) where
  read := ⟨_, rfl⟩
  write h0 := by
    rw [dmaTrace, if_pos h0]
    exact ⟨_, rfl⟩
  interrupt h0 h1 := by rw [dmaTrace, if_pos h0, if_pos h1]

theorem asks_blind (asq acq : UInt64) (answers : List (Option Message)) :
    Asks asq acq answers [readCommand asq, writeCompletion acq, interrupt] :=
  ⟨⟨_, rfl⟩, fun _ => ⟨_, rfl⟩, fun _ _ => rfl⟩

/-! ## The software model -/

theorem Software.grows (s : Software) (m : Message) (c : Script) : c.log <+: (s.handle m c).2.log := by
  unfold Software.handle
  dsimp only
  split
  · exact List.prefix_append ..
  · split
    · rw [(Software.handleMmioWrite_spec _ m c).2]
      exact List.prefix_append ..
    · split
      · exact List.prefix_append ..
      · exact List.prefix_rfl

theorem Software.handle_write (s : Software) {m : Message} (hw : m.header.isType .mmioWriteReq = true) (c : Script) :
    s.handle m c = (s.tick 15).handleMmioWrite m c := by
  have hr : m.header.isType .resetReq = false := Header.isType_of_ne hw (by decide)
  unfold Software.handle
  dsimp only
  rw [hr, hw, if_neg Bool.false_ne_true, if_pos rfl]

theorem Software.answers_write {s s' : Software} {m : Message} (hw : m.header.isType .mmioWriteReq = true)
    (h : (s.tick 15).store m.header.address m.payload = (.success, s')) (hbell : s'.doorbellRung = false) :
    Answers Software.handle s m .mmioWriteRsp [] s' := by
  intro c
  refine ⟨_, good_nil .mmioWriteRsp m.header.txnId m.header.address s'.simTime, ?_⟩
  rw [Software.handle_write s hw]
  unfold Software.handleMmioWrite
  dsimp only
  rw [h]
  dsimp only
  rw [if_neg (by rw [hbell]; exact Bool.false_ne_true)]

theorem Software.answers_read {s : Software} {m : Message} {v : UInt32} (hr : m.header.isType .mmioReadReq = true)
    (hlen : m.header.transferLen = 4) (hreg : s.register? m.header.address = some v) :
    Answers Software.handle s m .mmioReadRsp (encodeLe v.toUInt64 4) (s.tick 15) := by
  have hreset : m.header.isType .resetReq = false := Header.isType_of_ne hr (by decide)
  have hwrite : m.header.isType .mmioWriteReq = false := Header.isType_of_ne hr (by decide)
  have hload : (s.tick 15).load m = (.success, encodeLe v.toUInt64 4) := by
    rw [(s.tick 15).load_eq (.inl hlen), show (s.tick 15).register? m.header.address = some v from hreg, hlen]
  intro c
  refine ⟨_, good_makeHeader .mmioReadRsp m.header.txnId m.header.address (s.tick 15).simTime
    (by rw [length_encodeLe]; decide) 0, ?_⟩
  unfold Software.handle
  dsimp only
  rw [hreset, hwrite, hr, if_neg Bool.false_ne_true, if_neg Bool.false_ne_true, if_pos rfl]
  unfold Software.handleMmioRead
  rw [hload]

def software : Backend Software where
  handle := Software.handle
  idle s := s.doorbellRung = false
  face s := ⟨s.asq, s.acq, s.csts &&& 1 != 0⟩
  grows := Software.grows
  reset s id now hs := ⟨_, fun c => ⟨_, good_nil .resetRsp id 0 _, rfl⟩, hs⟩
  asq s v id now hs := by
    refine ⟨{ s.tick 15 with asq := v }, Software.answers_write rfl ?_ hs, hs, rfl⟩
    change (StatusCode.success, { s.tick 15 with asq := decodeU64 (encodeU64 v) }) = _
    rw [← decodeLe_eq_decodeU64, decodeLe_encodeU64]
  acq s v id now hs := by
    refine ⟨{ s.tick 15 with acq := v }, Software.answers_write rfl ?_ hs, hs, rfl⟩
    change (StatusCode.success, { s.tick 15 with acq := decodeU64 (encodeU64 v) }) = _
    rw [← decodeLe_eq_decodeU64, decodeLe_encodeU64]
  aqa s v id now hs := ⟨{ s.tick 15 with aqa := decodeU32 (encodeU32 v) }, Software.answers_write rfl rfl hs, hs, rfl⟩
  enable s id now hs := by
    have hone : decodeU32 (encodeU32 kCcEnable) = 1 := by decide
    refine ⟨{ s.tick 15 with cc := 1, csts := s.csts ||| 1 }, Software.answers_write rfl ?_ hs, hs, ?_⟩
    · change (StatusCode.success, { s.tick 15 with
        cc := decodeU32 (encodeU32 kCcEnable)
        csts := if decodeU32 (encodeU32 kCcEnable) &&& 1 ≠ 0 then s.csts ||| 1 else s.csts &&& ~~~1 }) = _
      rw [hone, if_pos (by decide)]
    · simp [Software.tick, or_one_and_one]
  csts s id now hs := by
    have hlen : popcountll 0xf = 4 := by decide
    refine ⟨_, s.tick 15, Software.answers_read rfl hlen rfl, hs, rfl, length_encodeLe .., ?_⟩
    intro h
    rw [getU32_encodeLe]
    exact bne_iff_ne.1 h
  bell s id now c hs := by
    let m := Call.request ⟨.mmioWriteReq, kSubmissionQueue0Doorbell, 0xf, encodeU32 1, now⟩ id
    have hstore : (s.tick 15).store m.header.address m.payload =
        (.success, { s.tick 15 with doorbellRung := true }) := rfl
    refine ⟨_, dmaTrace s.asq s.acq c.answers, good_nil .mmioWriteRsp id kSubmissionQueue0Doorbell (s.tick 15).simTime,
      ?_, asks_dmaTrace _ _ _⟩
    obtain ⟨-, hlog⟩ := (s.tick 15).handleMmioWrite_spec m c
    rw [hstore] at hlog
    rw [Software.handle_write s rfl]
    exact hlog

/-! ## The endpoint model -/

theorem NvmeRegs.grows (undef : Undef) (r : NvmeRegs) (m : Message) (c : Script) :
    c.log <+: (r.pollAndDispatch undef m c).2.log := by
  unfold NvmeRegs.pollAndDispatch
  dsimp only
  split
  · rw [(NvmeRegs.handleMmioWrite_spec r _ _ _ c).2]
    exact List.prefix_append ..
  · split
    · unfold NvmeRegs.handleMmioRead
      dsimp only
      split <;> exact List.prefix_append ..
    · split
      · exact List.prefix_append ..
      · exact List.prefix_rfl

theorem NvmeRegs.dispatch_write (undef : Undef) (r : NvmeRegs) {m : Message} (hw : m.header.isType .mmioWriteReq = true)
    (hlen : m.header.transferLen.toNat = m.payload.length) (c : Script) :
    r.pollAndDispatch undef m c = r.handleMmioWrite m.header.txnId m.header.address m.payload c := by
  unfold NvmeRegs.pollAndDispatch
  dsimp only
  rw [hw, if_pos rfl, payloadBytes_eq undef hlen]

theorem NvmeRegs.answers_write (undef : Undef) {r r' : NvmeRegs} {m : Message}
    (hw : m.header.isType .mmioWriteReq = true) (hlen : m.header.transferLen.toNat = m.payload.length)
    (h : r.write m.header.address (decodeLe m.payload) = ({}, r')) :
    Answers (NvmeRegs.pollAndDispatch undef) r m .mmioWriteRsp [] r' := by
  intro c
  refine ⟨_, good_nil .mmioWriteRsp m.header.txnId m.header.address 0, ?_⟩
  rw [r.dispatch_write undef hw hlen]
  unfold NvmeRegs.handleMmioWrite
  dsimp only
  rw [h]
  rfl

theorem NvmeRegs.answers_read (undef : Undef) {r : NvmeRegs} {m : Message} {v : UInt32}
    (hr : m.header.isType .mmioReadReq = true) (hlen : m.header.transferLen = 4)
    (hreg : r.read m.header.address = { rdata := v.toUInt64 }) :
    Answers (NvmeRegs.pollAndDispatch undef) r m .mmioReadRsp (encodeLe v.toUInt64 4) r := by
  have hwrite : m.header.isType .mmioWriteReq = false := Header.isType_of_ne hr (by decide)
  intro c
  refine ⟨_, good_makeHeader .mmioReadRsp m.header.txnId m.header.address 0 (by rw [length_encodeLe]; decide) 0, ?_⟩
  unfold NvmeRegs.pollAndDispatch
  dsimp only
  rw [hwrite, hr, if_neg Bool.false_ne_true, if_pos rfl]
  unfold NvmeRegs.handleMmioRead
  rw [hreg, hlen]
  dsimp only
  rw [if_neg Bool.false_ne_true, rdata_bytes v.toUInt64 (.inl rfl)]
  rfl

def endpointModel (undef : Undef) : Backend NvmeRegs where
  handle := NvmeRegs.pollAndDispatch undef
  idle _ := True
  face r := ⟨r.asq, r.acq, r.csts &&& 1 != 0⟩
  grows := NvmeRegs.grows undef
  reset r id now _ := ⟨r, fun c => ⟨_, good_nil .resetRsp id 0 0, rfl⟩, trivial⟩
  asq r v id now _ := by
    refine ⟨{ r with asq := v }, NvmeRegs.answers_write undef rfl rfl ?_, trivial, rfl⟩
    change (({}, { r with asq := decodeLe (encodeU64 v) }) : RegRsp × NvmeRegs) = _
    rw [decodeLe_encodeU64]
  acq r v id now _ := by
    refine ⟨{ r with acq := v }, NvmeRegs.answers_write undef rfl rfl ?_, trivial, rfl⟩
    change (({}, { r with acq := decodeLe (encodeU64 v) }) : RegRsp × NvmeRegs) = _
    rw [decodeLe_encodeU64]
  aqa r v id now _ :=
    ⟨{ r with aqa := (decodeLe (encodeU32 v)).toUInt32 }, NvmeRegs.answers_write undef rfl rfl rfl, trivial, rfl⟩
  enable r id now _ := by
    have hone : decodeLe (encodeU32 kCcEnable) = 1 := by decide
    refine ⟨{ r with cc := 1, csts := r.csts ||| 1 }, NvmeRegs.answers_write undef rfl rfl ?_, trivial, ?_⟩
    · change (({}, { r with
        cc := (decodeLe (encodeU32 kCcEnable)).toUInt32
        csts := if decodeLe (encodeU32 kCcEnable) &&& 1 ≠ 0 then r.csts ||| 1 else r.csts &&& ~~~1 }) :
          RegRsp × NvmeRegs) = _
      rw [hone, if_pos (by decide)]
      rfl
    · simp [or_one_and_one]
  csts r id now _ := by
    have hlen : popcountll 0xf = 4 := by decide
    refine ⟨_, r, NvmeRegs.answers_read undef rfl hlen rfl, trivial, rfl, length_encodeLe .., ?_⟩
    intro h
    rw [getU32_encodeLe]
    exact bne_iff_ne.1 h
  bell r id now c _ := by
    let m := Call.request ⟨.mmioWriteReq, kSubmissionQueue0Doorbell, 0xf, encodeU32 1, now⟩ id
    have hwrite : r.write m.header.address (decodeLe m.payload) =
        ({ doorbell := true }, { r with doorbellValue := (decodeLe m.payload).toUInt32 }) := rfl
    refine ⟨_, dmaTrace r.asq r.acq c.answers, good_nil .mmioWriteRsp id kSubmissionQueue0Doorbell 0, ?_,
      asks_dmaTrace _ _ _⟩
    obtain ⟨-, hlog⟩ := r.handleMmioWrite_spec m.header.txnId m.header.address m.payload c
    rw [hwrite] at hlog
    rw [r.dispatch_write undef rfl rfl]
    exact hlog

/-! ## mini_ics_alex_tb -/

theorem memWrite_csts (fab : Fabric) (r : Slave) {address : BitVec 64} (n : Nat) (data : BitVec 32) {d : Dw}
    (hd : reached address.toNat = some d) (hp : d.plain = true) :
    let w := r.memWrite fab (makeTlp true address n data)
    w.bresp = 0 ∧ w.slave.csts = r.csts ∧ w.pulse = false := by
  intro w
  have hw : w = _ := memWrite_plain fab r true n data hd hp
  obtain ⟨-, -, hcap, -⟩ := Dw.valid_of_plain hp
  rw [hw]
  refine ⟨rfl, ?_, rfl⟩
  cases d <;> first | rfl | cases hp

theorem memWrite_enable (fab : Fabric) (r : Slave) :
    let w := r.memWrite fab
      (makeTlp true kControllerConfiguration.toBitVec 4 (lo (decodeLe (encodeU32 kCcEnable)).toBitVec))
    w.bresp = 0 ∧ w.slave.csts.getLsbD 0 = true ∧ w.pulse = false := by
  intro w
  have hw : w = _ := memWrite_makeTlp fab r true _ 4 _
  rw [show reached kControllerConfiguration.toBitVec.toNat = some .cc from rfl] at hw
  rw [hw]
  refine ⟨rfl, ?_, rfl⟩
  change (BitVec.setWidth 32 (BitVec.ofBool (if (byteEnable 0 4).getLsbD 0 then
    (lo (decodeLe (encodeU32 kCcEnable)).toBitVec).getLsbD 0 else r.cc.getLsbD 0))).getLsbD 0 = true
  rw [if_pos (by decide), show (lo (decodeLe (encodeU32 kCcEnable)).toBitVec).getLsbD 0 = true from by decide]
  rfl

theorem AlexTb.grows (fab : Fabric) (undef : Undef) (s : AlexTb) (m : Message) (c : Script) :
    c.log <+: (s.pollOne fab undef m c).2.log := by
  unfold AlexTb.pollOne
  split
  · unfold AlexTb.handleMmioRead
    dsimp only
    split
    · split <;> exact List.prefix_append ..
    · exact List.prefix_append ..
  · split
    · rw [(AlexTb.handleMmioWrite_spec fab undef s m c).2]
      exact List.prefix_append ..
    · split
      · exact List.prefix_append ..
      · exact List.prefix_rfl

theorem AlexTb.answers_write (fab : Fabric) (undef : Undef) {s : AlexTb} {m : Message} {slave : Slave}
    {asq acq : UInt64} (hw : m.header.isType .mmioWriteReq = true) (hlen : m.header.transferLen.toNat ∈ lengths)
    (hsent : s.sent fab undef m = (true, slave)) (haddr : m.header.address ≠ 0x1000)
    (hq : s.queues undef m = (asq, acq)) :
    Answers (AlexTb.pollOne fab undef) s m .mmioWriteRsp [] ⟨slave, asq, acq⟩ := by
  have hr : m.header.isType .mmioReadReq = false := Header.isType_of_ne hw (by decide)
  intro c
  refine ⟨_, good_nil .mmioWriteRsp m.header.txnId m.header.address 0, ?_⟩
  have hasq : _ = asq := congrArg Prod.fst hq
  have hacq : _ = acq := congrArg Prod.snd hq
  unfold AlexTb.pollOne
  rw [hr, hw, if_neg Bool.false_ne_true, if_pos rfl]
  unfold AlexTb.handleMmioWrite
  dsimp only
  rw [if_pos hlen, hsent, if_pos rfl, if_neg haddr, ← hasq, ← hacq]
  rfl

theorem AlexTb.sent_eight (fab : Fabric) (undef : Undef) (s : AlexTb) {m : Message} {d e : Dw}
    (hlen : m.header.transferLen.toNat = 8) (hd : reached m.header.address.toBitVec.toNat = some d)
    (hdp : d.plain = true) (he : reached (m.header.address.toBitVec + 4).toNat = some e) (hep : e.plain = true) :
    ∃ slave, s.sent fab undef m = (true, slave) ∧ slave.csts = s.slave.csts := by
  unfold AlexTb.sent
  dsimp only
  rw [hlen, writeChunks_eight]
  dsimp only
  generalize lo (decodeLe ((payloadBytes undef m.payload m.header.transferLen).take 4)).toBitVec = x
  generalize lo (decodeLe (((payloadBytes undef m.payload m.header.transferLen).drop 4).take 4)).toBitVec = y
  obtain ⟨hb, hc, -⟩ := memWrite_csts fab s.slave 4 x hd hdp
  generalize s.slave.memWrite fab (makeTlp true m.header.address.toBitVec 4 x) = w at hb hc ⊢
  obtain ⟨hb', hc', -⟩ := memWrite_csts fab w.slave 4 y he hep
  rw [if_pos hb, hb']
  exact ⟨_, rfl, hc'.trans hc⟩

theorem AlexTb.sent_four (fab : Fabric) (undef : Undef) (s : AlexTb) {m : Message} {a : BitVec 64} {data : BitVec 32}
    (hlen : m.header.transferLen.toNat = 4) (hpay : m.payload.length = 4) (ha : m.header.address.toBitVec = a)
    (hdata : lo (decodeLe m.payload).toBitVec = data) (hb : (s.slave.memWrite fab (makeTlp true a 4 data)).bresp = 0) :
    s.sent fab undef m = (true, (s.slave.memWrite fab (makeTlp true a 4 data)).slave) := by
  unfold AlexTb.sent
  dsimp only
  rw [hlen, writeChunks_short fab _ _ _ (.inr (.inr rfl)), payloadBytes_eq undef (hlen.trans hpay.symm),
    List.take_of_length_le (Nat.le_of_eq hpay), ha, hdata]
  dsimp only
  rw [hb]
  rfl

theorem dw_bytes (v : BitVec 32) :
    (List.range 4).map (fun k => UInt8.ofBitVec (byteAt v k)) = encodeLe (UInt32.ofBitVec v).toUInt64 4 := by
  have hbytes : encodeLe (UInt32.ofBitVec v).toUInt64 4 = leBytes 4 v.toNat :=
    bytes_eq (UInt32.ofBitVec v).toUInt64 (by decide : 4 ≤ 8)
  rw [hbytes, leBytes_eq_map]
  apply List.map_congr_left
  intro k _
  apply UInt8.toNat_inj.1
  rw [UInt8.toNat_ofBitVec, toNat_byteAt, UInt8.toNat_ofNat']

theorem ready_iff (v : BitVec 32) : UInt32.ofBitVec v &&& 1 ≠ 0 ↔ v.getLsbD 0 = true := by
  rw [Ne, ← UInt32.toNat_inj, UInt32.toNat_and, UInt32.toNat_ofBitVec, BitVec.getLsbD, Nat.testBit_zero,
    decide_eq_true_eq]
  change ¬ v.toNat &&& 1 = 0 ↔ _
  rw [Nat.and_one_is_mod]
  omega

theorem AlexTb.answers_status (fab : Fabric) (undef : Undef) {s : AlexTb} {m : Message}
    (hr : m.header.isType .mmioReadReq = true) (hlen : m.header.transferLen = 4)
    (haddr : m.header.address = kControllerStatus) :
    Answers (AlexTb.pollOne fab undef) s m .mmioReadRsp (encodeLe (UInt32.ofBitVec s.slave.csts).toUInt64 4) s := by
  have hchunks : readChunks fab kControllerStatus s.slave 4 4 0 =
      some (encodeLe (UInt32.ofBitVec s.slave.csts).toUInt64 4) := by
    rw [readChunks, if_pos (by decide)]
    dsimp only
    rw [memRead_makeTlp fab s.slave false _ _ _ (show reached _ = some .csts from rfl) rfl, if_neg (not_not_intro rfl),
      show chunkLen 4 0 = 4 from rfl, readChunks, if_neg (by decide), ← dw_bytes]
    simp [Slave.word]
  intro c
  refine ⟨_, good_makeHeader .mmioReadRsp m.header.txnId m.header.address 0 (by rw [length_encodeLe]; decide) 0, ?_⟩
  unfold AlexTb.pollOne
  rw [hr, if_pos rfl]
  unfold AlexTb.handleMmioRead
  dsimp only
  rw [hlen, haddr, if_pos (show (4 : UInt32).toNat ∈ lengths by decide), show (4 : UInt32).toNat = 4 from rfl, hchunks]
  rfl

theorem AlexTb.queues_eight (undef : Undef) (s : AlexTb) {m : Message} {v : UInt64}
    (hlen : m.header.transferLen.toNat = 8) (hpay : m.payload = encodeU64 v) :
    s.queues undef m =
      (if m.header.address = 0x28 then v else s.asqAddr, if m.header.address = 0x30 then v else s.acqAddr) := by
  have hbytes : payloadBytes undef m.payload m.header.transferLen = m.payload :=
    payloadBytes_eq undef (by rw [hlen, hpay]; rfl)
  have hqueue : ∀ old base : UInt64, queueAddr old base m.header.address 8 (encodeU64 v) =
      if m.header.address = base then v else old := by
    intro old base
    unfold queueAddr
    dsimp only
    by_cases h : m.header.address = base
    · rw [if_pos ⟨h, rfl⟩, if_pos h, decodeLe_encodeU64]
    · rw [if_neg (fun hb => h hb.1), if_neg (fun hb => h hb.1), if_neg (fun hb => absurd hb.2 (by decide)), if_neg h]
  unfold AlexTb.queues
  dsimp only
  rw [hbytes, hlen, hpay, hqueue, hqueue]

theorem AlexTb.queues_other (undef : Undef) (s : AlexTb) {m : Message}
    (haddr : m.header.address ∉ [(0x28 : UInt64), 0x2c, 0x30, 0x34]) : s.queues undef m = (s.asqAddr, s.acqAddr) := by
  simp only [List.mem_cons, List.not_mem_nil, or_false, not_or] at haddr
  obtain ⟨h28, h2c, h30, h34⟩ := haddr
  have h28' : ¬ m.header.address = 0x28 + 4 := h2c
  have h30' : ¬ m.header.address = 0x30 + 4 := h34
  simp only [AlexTb.queues, queueAddr, h28, h28', h30, h30', false_and, if_false]

def alexTb (fab : Fabric) (undef : Undef) : Backend AlexTb where
  handle := AlexTb.pollOne fab undef
  idle _ := True
  face s := ⟨s.asqAddr, s.acqAddr, s.slave.csts.getLsbD 0⟩
  grows := AlexTb.grows fab undef
  reset s id now _ := ⟨s, fun c => ⟨_, good_nil .resetRsp id 0 0, rfl⟩, trivial⟩
  asq s v id now _ := by
    let m := Call.request ⟨.mmioWriteReq, kAdminSubmissionQueueBase, 0xff, encodeU64 v, now⟩ id
    have hlen : m.header.transferLen.toNat = 8 := rfl
    have hlo : reached kAdminSubmissionQueueBase.toBitVec.toNat = some .asqLo := rfl
    have hhi : reached (kAdminSubmissionQueueBase.toBitVec + 4).toNat = some .asqHi := rfl
    have haddr : kAdminSubmissionQueueBase ≠ 0x1000 := by decide
    obtain ⟨slave, hsent, hcsts⟩ := s.sent_eight fab undef hlen hlo rfl hhi rfl
    refine ⟨⟨slave, v, s.acqAddr⟩, ?_, trivial, by rw [hcsts]⟩
    exact AlexTb.answers_write fab undef rfl (by rw [hlen]; decide) hsent haddr (s.queues_eight undef hlen rfl)
  acq s v id now _ := by
    let m := Call.request ⟨.mmioWriteReq, kAdminCompletionQueueBase, 0xff, encodeU64 v, now⟩ id
    have hlen : m.header.transferLen.toNat = 8 := rfl
    have hlo : reached kAdminCompletionQueueBase.toBitVec.toNat = some .acqLo := rfl
    have hhi : reached (kAdminCompletionQueueBase.toBitVec + 4).toNat = some .acqHi := rfl
    have haddr : kAdminCompletionQueueBase ≠ 0x1000 := by decide
    obtain ⟨slave, hsent, hcsts⟩ := s.sent_eight fab undef hlen hlo rfl hhi rfl
    refine ⟨⟨slave, s.asqAddr, v⟩, ?_, trivial, by rw [hcsts]⟩
    exact AlexTb.answers_write fab undef rfl (by rw [hlen]; decide) hsent haddr (s.queues_eight undef hlen rfl)
  aqa s v id now _ := by
    let m := Call.request ⟨.mmioWriteReq, kAdminQueueAttributes, 0xf, encodeU32 v, now⟩ id
    have hlen : m.header.transferLen.toNat = 4 := rfl
    have hdw : reached kAdminQueueAttributes.toBitVec.toNat = some .aqa := rfl
    have haddr : kAdminQueueAttributes ≠ 0x1000 := by decide
    have hq := s.queues_other undef
      (show m.header.address ∉ [(0x28 : UInt64), 0x2c, 0x30, 0x34] from (by decide : kAdminQueueAttributes ∉ _))
    obtain ⟨hb, hcsts, -⟩ := memWrite_csts fab s.slave 4 (lo (decodeLe (encodeU32 v)).toBitVec) hdw rfl
    have hsent := s.sent_four fab undef hlen rfl rfl rfl hb
    refine ⟨_, AlexTb.answers_write fab undef rfl (by rw [hlen]; decide) hsent haddr hq, trivial, ?_⟩
    exact congrArg (fun csts : BitVec 32 => Face.mk s.asqAddr s.acqAddr (csts.getLsbD 0)) hcsts
  enable s id now _ := by
    let m := Call.request ⟨.mmioWriteReq, kControllerConfiguration, 0xf, encodeU32 kCcEnable, now⟩ id
    have hlen : m.header.transferLen.toNat = 4 := rfl
    have haddr : kControllerConfiguration ≠ 0x1000 := by decide
    have hq := s.queues_other undef
      (show m.header.address ∉ [(0x28 : UInt64), 0x2c, 0x30, 0x34] from (by decide : kControllerConfiguration ∉ _))
    obtain ⟨hb, hcsts, -⟩ := memWrite_enable fab s.slave
    have hsent := s.sent_four fab undef hlen rfl rfl rfl hb
    refine ⟨_, AlexTb.answers_write fab undef rfl (by rw [hlen]; decide) hsent haddr hq, trivial, ?_⟩
    exact congrArg (Face.mk s.asqAddr s.acqAddr) hcsts
  csts s id now _ := by
    have hlen : popcountll 0xf = 4 := by decide
    refine ⟨_, s, AlexTb.answers_status fab undef rfl hlen rfl, trivial, rfl, length_encodeLe .., ?_⟩
    intro h
    rw [getU32_encodeLe]
    exact (ready_iff _).2 h
  bell s id now c _ := by
    let m := Call.request ⟨.mmioWriteReq, kSubmissionQueue0Doorbell, 0xf, encodeU32 1, now⟩ id
    have hw : m.header.isType .mmioWriteReq = true := rfl
    have hr : m.header.isType .mmioReadReq = false := rfl
    have hrung := (AlexTb.rung_iff fab undef s hw).2 ⟨hw, rfl, .inr (.inr rfl)⟩
    have hq := s.queues_other undef
      (show m.header.address ∉ [(0x28 : UInt64), 0x2c, 0x30, 0x34] from (by decide : kSubmissionQueue0Doorbell ∉ _))
    refine ⟨_, _, good_nil .mmioWriteRsp id kSubmissionQueue0Doorbell 0, ?_, asks_blind s.asqAddr s.acqAddr c.answers⟩
    obtain ⟨-, hlog⟩ := s.handleMmioWrite_spec fab undef m c
    rw [hq, if_pos hrung, hrung.1] at hlog
    unfold AlexTb.pollOne
    rw [hr, hw, if_neg Bool.false_ne_true, if_pos rfl]
    exact hlog

/-! ## The Verilator main loop -/

variable {δ : Type}

structure Engine.Grows (eng : Engine δ) : Prop where
  dmaRead  : ∀ a r n t s, s.2.log <+: (eng.dmaRead a r n t s).2.2.log
  dmaWrite : ∀ a r n t s, s.2.log <+: (eng.dmaWrite a r n t s).2.2.log

theorem Script.grows_request (c : Script) (t : MessageType) (a : UInt64) (p : List UInt8) (n : UInt32) (e : Bool) :
    c.log <+: (c.sendRequestToHost t a p n e).2.log := by
  unfold Script.sendRequestToHost
  dsimp only
  split <;> exact List.prefix_append ..

theorem Engine.Grows.keeps {eng : Engine δ} (h : eng.Grows) (fab : Fabric) (log : List Out) :
    (Alex.env fab eng.host).Keeps (fun s => log <+: s.host.2.log) where
  request t a p n e s hs := hs.trans (Script.grows_request s.host.2 t a p n e)
  dmaRead a r n t s hs := hs.trans (h.dmaRead a r n t s.host)
  dmaWrite a r n t s hs := hs.trans (h.dmaWrite a r n t s.host)

theorem access_host (fab : Fabric) (eng : Engine δ) (v : Shadow) (write : Bool) (address : UInt64) (length : UInt32)
    (data : UInt64) (s : Sim (δ × Script)) :
    (access (Alex.env fab eng.host) v write address length data s).2.host = s.host := by
  unfold access
  split <;> rfl

theorem MainLoop.grows (fab : Fabric) {eng : Engine δ} (h : eng.Grows) (s : MainLoop δ) (m : Message) (c : Script) :
    c.log <+: (s.handle fab eng m c).2.log := by
  have hk := h.keeps fab c.log
  have hresponse : ∀ (x : Sim (δ × Script)) (hdr : Header) (p : List UInt8), x.host = (s.engine, c) →
      c.log <+: ((Alex.env fab eng.host).sendResponse hdr p x).host.2.log := by
    intro x hdr p hx
    change c.log <+: x.host.2.log ++ _
    rw [hx]
    exact List.prefix_append ..
  unfold MainLoop.handle Verilator.handle
  dsimp only
  split
  · exact List.prefix_append ..
  · split
    · unfold handleWrite
      dsimp only
      generalize hd : Shadow.tailDoorbell _ _ _ _ _ = d
      have hbell : c.log <+: d.2.2.host.2.log := by
        rw [← hd]
        unfold Shadow.tailDoorbell
        split
        · exact hk.runGenericDma _ _ _ _ _ (hresponse _ _ _ (access_host ..))
        · exact hresponse _ _ _ (access_host ..)
      rw [sq0Doorbell_log]
      exact hbell.trans (List.prefix_append ..)
    · split
      · exact hresponse _ _ _ (access_host ..)
      · exact List.prefix_rfl

theorem MainLoop.answers_write (fab : Fabric) (eng : Engine δ) {s : MainLoop δ} {m : Message} {x : UInt64}
    {harness : Harness} (hw : m.header.isType .mmioWriteReq = true) (h54 : m.header.address ≠ 0x1054)
    (h00 : m.header.address ≠ 0x1000) (hmmio : s.harness.mmio fab true m.header.address (MainLoop.length m)
      (decodeLe m.payload) = (some (x, 0), harness)) :
    Answers (MainLoop.handle fab eng) s m .mmioWriteRsp []
      ⟨s.shadow.assign m.header.address (decodeLe m.payload), harness, s.engine⟩ := by
  have hr : m.header.isType .resetReq = false := Header.isType_of_ne hw (by decide)
  intro c
  have hacc : access (Alex.env fab eng.host) s.shadow true m.header.address (MainLoop.length m) (decodeLe m.payload)
      ⟨s.harness, (s.engine, c)⟩ = ((x, 0), ⟨harness, (s.engine, c)⟩) := by
    unfold access
    rw [if_neg (fun h => Bool.true_eq_false_eq_False h.1)]
    dsimp only [Alex.env]
    rw [hmmio]
  have htail : ∀ (v : Shadow) (data : UInt64) (x : Sim (δ × Script)),
      v.tailDoorbell (Alex.env fab eng.host) m.header.address data x = (v, [], x) := by
    intro v data x
    rw [Shadow.tailDoorbell, if_neg (fun h => h54 h.1)]
  have hsq : ∀ (v : Shadow) (x : Sim (δ × Script)), sq0Doorbell (Alex.env fab eng.host) v m.header.address x = x := by
    intro v x
    rw [sq0Doorbell, if_neg (fun h => h00 h.1)]
  refine ⟨_, good_nil .mmioWriteRsp m.header.txnId m.header.address (eng.simTime s.engine), ?_⟩
  unfold MainLoop.handle Verilator.handle
  dsimp only
  rw [hr, hw, if_neg Bool.false_ne_true, if_pos rfl]
  unfold handleWrite
  dsimp only
  rw [show access _ _ _ _ (if m.header.transferLen ≠ 0 then _ else _) _ _ = _ from hacc, htail, hsq]
  rfl

theorem MainLoop.answers_status (fab : Fabric) (eng : Engine δ) {s : MainLoop δ} {m : Message}
    (hr : m.header.isType .mmioReadReq = true) (hlen : m.header.transferLen = 4)
    (haddr : m.header.address = kControllerStatus) :
    Answers (MainLoop.handle fab eng) s m .mmioReadRsp (encodeLe (UInt32.ofBitVec s.harness.slave.csts).toUInt64 4)
      s := by
  have hreset : m.header.isType .resetReq = false := Header.isType_of_ne hr (by decide)
  have hwrite : m.header.isType .mmioWriteReq = false := Header.isType_of_ne hr (by decide)
  intro c
  have hacc : access (Alex.env fab eng.host) s.shadow false kControllerStatus 4 (decodeLe m.payload)
      ⟨s.harness, (s.engine, c)⟩ =
        ((UInt64.ofBitVec (s.harness.slave.csts.setWidth 64), 0), ⟨s.harness, (s.engine, c)⟩) := by
    unfold access
    rw [if_neg (by decide)]
    dsimp only [Alex.env]
    rw [mmio_read_one fab _ _ _ (.inr (.inr rfl)) (show reached _ = some .csts from rfl) rfl]
    rfl
  have hval : UInt64.ofBitVec (s.harness.slave.csts.setWidth 64) = (UInt32.ofBitVec s.harness.slave.csts).toUInt64 := by
    rw [← UInt64.toBitVec_inj, UInt32.toBitVec_toUInt64]
  refine ⟨_, good_makeHeader .mmioReadRsp m.header.txnId m.header.address (eng.simTime s.engine)
    (by rw [length_encodeLe]; decide) 4, ?_⟩
  unfold MainLoop.handle Verilator.handle
  dsimp only
  rw [hreset, hwrite, hr, if_neg Bool.false_ne_true, if_neg Bool.false_ne_true, if_pos rfl, hlen, if_pos (by decide)]
  unfold handleRead
  dsimp only
  rw [haddr, hacc]
  dsimp only
  rw [if_pos rfl, if_pos rfl, hval]
  rfl

theorem mmio_eight_plain (fab : Fabric) (h : Harness) {address : UInt64} (data : UInt64) {d e : Dw}
    (hd : reached address.toBitVec.toNat = some d) (hdp : d.plain = true)
    (he : reached (address.toBitVec + 4).toNat = some e) (hep : e.plain = true) :
    ∃ harness, h.mmio fab true address 8 data = (some (0, 0), harness) ∧ harness.slave.csts = h.slave.csts := by
  rw [mmio_eight fab h address data true (fab.lenPort_eq 8 (by decide)), if_pos rfl]
  dsimp only
  obtain ⟨hb, hc, -⟩ := memWrite_csts fab h.slave 4 (lo data.toBitVec) hd hdp
  generalize h.slave.memWrite fab (makeTlp true address.toBitVec 4 (lo data.toBitVec)) = w at hb hc ⊢
  obtain ⟨hb', hc', -⟩ := memWrite_csts fab w.slave 4 (hi data.toBitVec) he hep
  rw [if_pos ⟨hb, hb'⟩]
  exact ⟨_, rfl, hc'.trans hc⟩

theorem mmio_four_okay (fab : Fabric) (h : Harness) (address data : UInt64)
    (hb : (h.slave.memWrite fab (makeTlp true address.toBitVec 4 (lo data.toBitVec))).bresp = 0) :
    ∃ harness, h.mmio fab true address 4 data = (some (0, 0), harness) ∧
      harness.slave = (h.slave.memWrite fab (makeTlp true address.toBitVec 4 (lo data.toBitVec))).slave := by
  rw [mmio_short fab h address data true (fab.lenPort_eq 4 (by decide)) (.inr (.inr rfl)), if_pos rfl]
  dsimp only
  rw [show (4 : UInt32).toNat = 4 from rfl, if_pos hb]
  exact ⟨_, rfl, rfl⟩

theorem asks_answered (asq acq : UInt64) (answers : List (Option Message)) :
    Asks asq acq answers
      (readCommand asq :: if (answers.getD 0 none).isSome then [writeCompletion acq, interrupt] else []) := by
  have hsome : acked answers 0 = true → (answers.getD 0 none).isSome = true := by
    intro h
    unfold acked at h
    cases hans : answers.getD 0 none with
    | none   => rw [hans] at h; cases h
    | some m => rfl
  refine ⟨⟨_, rfl⟩, fun h0 => ?_, fun h0 _ => ?_⟩
  · rw [if_pos (hsome h0)]
    exact ⟨_, rfl⟩
  · rw [if_pos (hsome h0)]

def mainLoop (fab : Fabric) (eng : Engine δ) (h : eng.Grows) : Backend (MainLoop δ) where
  handle := MainLoop.handle fab eng
  idle _ := True
  face s := ⟨s.shadow.asq, s.shadow.acq, s.harness.slave.csts.getLsbD 0⟩
  grows := MainLoop.grows fab h
  reset s id now _ :=
    ⟨⟨s.shadow, s.harness.reset, eng.reset s.engine⟩,
      fun c => ⟨_, good_nil .resetRsp id 0 (eng.simTime (eng.reset s.engine)), rfl⟩, trivial⟩
  asq s v id now _ := by
    have hlo : reached kAdminSubmissionQueueBase.toBitVec.toNat = some .asqLo := rfl
    have hhi : reached (kAdminSubmissionQueueBase.toBitVec + 4).toNat = some .asqHi := rfl
    have haddr : kAdminSubmissionQueueBase ≠ 0x1054 ∧ kAdminSubmissionQueueBase ≠ 0x1000 := by decide
    obtain ⟨harness, hmmio, hcsts⟩ := mmio_eight_plain fab s.harness (decodeLe (encodeU64 v)) hlo rfl hhi rfl
    refine ⟨_, MainLoop.answers_write fab eng rfl haddr.1 haddr.2 hmmio, trivial, ?_⟩
    dsimp only
    rw [hcsts]
    exact congrArg (Face.mk · s.shadow.acq (s.harness.slave.csts.getLsbD 0)) (decodeLe_encodeU64 v)
  acq s v id now _ := by
    have hlo : reached kAdminCompletionQueueBase.toBitVec.toNat = some .acqLo := rfl
    have hhi : reached (kAdminCompletionQueueBase.toBitVec + 4).toNat = some .acqHi := rfl
    have haddr : kAdminCompletionQueueBase ≠ 0x1054 ∧ kAdminCompletionQueueBase ≠ 0x1000 := by decide
    obtain ⟨harness, hmmio, hcsts⟩ := mmio_eight_plain fab s.harness (decodeLe (encodeU64 v)) hlo rfl hhi rfl
    refine ⟨_, MainLoop.answers_write fab eng rfl haddr.1 haddr.2 hmmio, trivial, ?_⟩
    dsimp only
    rw [hcsts]
    exact congrArg (Face.mk s.shadow.asq · (s.harness.slave.csts.getLsbD 0)) (decodeLe_encodeU64 v)
  aqa s v id now _ := by
    have hdw : reached kAdminQueueAttributes.toBitVec.toNat = some .aqa := rfl
    have haddr : kAdminQueueAttributes ≠ 0x1054 ∧ kAdminQueueAttributes ≠ 0x1000 := by decide
    obtain ⟨hb, hcsts, -⟩ := memWrite_csts fab s.harness.slave 4 (lo (decodeLe (encodeU32 v)).toBitVec) hdw rfl
    obtain ⟨harness, hmmio, hslave⟩ := mmio_four_okay fab s.harness _ _ hb
    refine ⟨_, MainLoop.answers_write fab eng rfl haddr.1 haddr.2 hmmio, trivial, ?_⟩
    dsimp only
    rw [hslave, hcsts]
    rfl
  enable s id now _ := by
    have haddr : kControllerConfiguration ≠ 0x1054 ∧ kControllerConfiguration ≠ 0x1000 := by decide
    obtain ⟨hb, hcsts, -⟩ := memWrite_enable fab s.harness.slave
    obtain ⟨harness, hmmio, hslave⟩ := mmio_four_okay fab s.harness _ _ hb
    refine ⟨_, MainLoop.answers_write fab eng rfl haddr.1 haddr.2 hmmio, trivial, ?_⟩
    dsimp only
    rw [hslave, hcsts]
    rfl
  csts s id now _ := by
    have hlen : popcountll 0xf = 4 := by decide
    refine ⟨_, s, MainLoop.answers_status fab eng rfl hlen rfl, trivial, rfl, length_encodeLe .., ?_⟩
    intro h
    rw [getU32_encodeLe]
    exact (ready_iff _).2 h
  bell s id now c _ := by
    let m := Call.request ⟨.mmioWriteReq, kSubmissionQueue0Doorbell, 0xf, encodeU32 1, now⟩ id
    have h54 : kSubmissionQueue0Doorbell ≠ 0x1054 := by decide
    have hb : (s.harness.slave.memWrite fab (makeTlp true kSubmissionQueue0Doorbell.toBitVec 4
        (lo (decodeLe (encodeU32 1)).toBitVec))).bresp = 0 := by
      rw [memWrite_makeTlp, show reached kSubmissionQueue0Doorbell.toBitVec.toNat = some .doorbell from rfl]
      rfl
    obtain ⟨harness, hmmio, -⟩ := mmio_four_okay fab s.harness kSubmissionQueue0Doorbell (decodeLe (encodeU32 1)) hb
    have hseen : harness.doorbellSeen = true := by
      have := (mmio_doorbell fab s.harness 4 (decodeLe (encodeU32 1))).2
        (.inr (by rw [fab.lenPort_eq 4 (by decide)]; decide))
      rwa [show s.harness.mmio fab true 0x1000 4 _ = _ from hmmio] at this
    refine ⟨_, _, good_nil .mmioWriteRsp id kSubmissionQueue0Doorbell (eng.simTime s.engine), ?_,
      asks_answered s.shadow.asq s.shadow.acq c.answers⟩
    have hw : m.header.isType .mmioWriteReq = true := rfl
    have hstatus : (some ((0 : UInt64), (0 : UInt32))).elim 5 Prod.snd = 0 := rfl
    have hrung : m.header.address = 0x1000 ∧ harness.doorbellSeen = true := ⟨rfl, hseen⟩
    obtain ⟨-, -, hlog⟩ := s.handleWrite_spec fab eng hw h54 c
    rw [show s.harness.mmio fab true m.header.address (MainLoop.length m) (decodeLe m.payload) = _ from hmmio,
      if_pos hstatus, if_pos hrung] at hlog
    exact hlog

end Endpoint
end Vip
