import PcieVip.DoorbellDma
import PcieVip.HostClient
import PcieVip.QemuWork
/-!
# PayloadBound — the headers that a peer's decoder would refuse

The decoders refuse a header whose payload is longer than 16 MiB and the connection is then dropped.  No sender looks at
that bound: QEMU takes its `max-transfer` property, the host client the size of its memory, and the Verilator main loop
whatever length a read asks for.  A header is acceptable exactly when that other bound happens to be enough
(`payload_bound_iff`).
-/
namespace Vip
namespace Endpoint

open Alex Bytes Ics Verilator Word
open HostClient (Client inBoundsLocked kMemorySize sendDmaReadResponse)

/-! ## Acceptable headers -/

/-- The header is within the bound, and both decoders take it. -/
structure Acceptable (wire : List UInt8) (payloadLen : UInt32) : Prop where
  bound : payloadLen ≤ kMaxPayloadSize
  ics   : ∃ h, deserializeHeader wire = .ok h
  mics  : ∃ h, Qemu.micsDecodeHeader wire = some h

theorem acceptable_iff {h : Header} (hmagic : h.magic = kProtocolMagic) (hversion : h.version = kProtocolVersion)
    (hlen : h.headerLen.toNat = kHeaderSize) :
    Acceptable (serializeHeader h) h.payloadLen ↔ h.payloadLen ≤ kMaxPayloadSize := by
  refine ⟨fun ha => ha.bound, fun hb => ?_⟩
  have hok := deserializeHeader_serializeHeader h ⟨hmagic, hversion, hlen, hb⟩
  refine ⟨hb, ⟨h, hok⟩, Qemu.ofIcs h, ?_⟩
  rw [Qemu.micsDecodeHeader_eq _ (length_serializeHeader h), hok]
  rfl

theorem zero_le_bound : (0 : UInt32) ≤ kMaxPayloadSize := by decide

theorem ne_zero_of_bound {n : UInt32} (h : kMaxPayloadSize < n) : n ≠ 0 := by
  rintro rfl
  exact absurd h (by decide)

/-! ## QEMU -/

/-- **The device model sends an acceptable header unless a DMA read over 16 MiB passes its `max-transfer`.** -/
theorem qemu_acceptable_iff (maxTransfer : UInt32) (w : Qemu.MicsMessage) (ok : Bool) (data : List UInt8)
    (now : UInt64) :
    (∀ r, .send r ∈ Qemu.workEffects maxTransfer w ok data now →
        Acceptable (Qemu.micsEncodeHeader r.h) r.h.payloadLen) ↔
      ¬ (w.h.type = Qemu.MicsType.dmaReadReq.code ∧ kMaxPayloadSize < w.h.transferLen ∧
        w.h.transferLen ≤ maxTransfer ∧ ok = true) := by
  have hbound : ∀ r : Qemu.MicsMessage,
      Acceptable (Qemu.micsEncodeHeader r.h) r.h.payloadLen ↔ r.h.payloadLen ≤ kMaxPayloadSize := by
    intro r
    rw [Qemu.micsEncodeHeader_eq]
    exact acceptable_iff (h := r.h.toIcs) rfl rfl rfl
  simp only [hbound, Qemu.send_mem_workEffects]
  by_cases hr : w.h.type = Qemu.MicsType.dmaReadReq.code
  · have hreply : ∀ r, Joint.processWork maxTransfer w ok data now = some r → r.h.payloadLen =
        if w.h.transferLen ≠ 0 ∧ w.h.transferLen ≤ maxTransfer ∧ ok = true then w.h.transferLen else 0 := by
      intro r hrun
      rw [Joint.processWork, if_pos hr] at hrun
      cases hrun
      simp only
    have hsome : ∃ r, Joint.processWork maxTransfer w ok data now = some r := by
      rw [Joint.processWork, if_pos hr]
      exact ⟨_, rfl⟩
    constructor
    · rintro h ⟨-, hbig, hmax, hok⟩
      obtain ⟨r, hrun⟩ := hsome
      have hle := h r hrun
      rw [hreply r hrun, if_pos ⟨ne_zero_of_bound hbig, hmax, hok⟩] at hle
      exact UInt32.not_le.2 hbig hle
    · intro h r hrun
      rw [hreply r hrun]
      split
      · rename_i hgood
        exact UInt32.not_lt.1 (fun hbig => h ⟨hr, hbig, hgood.2⟩)
      · exact zero_le_bound
  · refine iff_of_true (fun r hrun => ?_) (fun h => hr h.1)
    rw [Joint.processWork, if_neg hr] at hrun
    split at hrun
    · cases hrun
      exact zero_le_bound
    · cases hrun

/-! ## The host client -/

theorem client_read_acceptable_iff (s : Client) (msg : Message) (now : UInt64) :
    (∀ rsp, (s.dmaRead msg now).reply = some rsp → Acceptable (serializeHeader rsp.header) rsp.header.payloadLen) ↔
      ¬ (kMaxPayloadSize < msg.header.transferLen ∧
        inBoundsLocked kMemorySize msg.header.address msg.header.transferLen.toUInt64 = true) := by
  obtain ⟨data, status, hreply, hiff, hdata⟩ := s.dmaRead_reply msg now
  rw [s.size] at hiff
  have hbound : (∀ rsp, (s.dmaRead msg now).reply = some rsp →
      Acceptable (serializeHeader rsp.header) rsp.header.payloadLen) ↔ UInt32.ofNat data.length ≤ kMaxPayloadSize := by
    rw [hreply]
    exact ⟨fun h => (acceptable_iff rfl rfl rfl).1 (h _ rfl),
      fun h rsp hrsp => Option.some.inj hrsp ▸ (acceptable_iff rfl rfl rfl).2 h⟩
  rw [hbound]
  by_cases hst : status = .success
  · obtain ⟨-, hin⟩ := hiff.1 hst
    rw [hdata, if_pos hst, Mem.length_read, UInt32.ofNat_toNat, ← UInt32.not_lt]
    exact not_congr (and_iff_left hin).symm
  · rw [hdata, if_neg hst]
    exact iff_of_true zero_le_bound (fun h => hst (hiff.2 ⟨ne_zero_of_bound h.1, h.2⟩))

/-- **The host client sends an acceptable header unless it reads more than 16 MiB within its memory.** -/
theorem client_acceptable_iff (s : Client) (msg : Message) (now : UInt64) :
    (∀ rsp, (s.service msg now).reply = some rsp → Acceptable (serializeHeader rsp.header) rsp.header.payloadLen) ↔
      ¬ (msg.header.isType .dmaReadReq = true ∧ kMaxPayloadSize < msg.header.transferLen ∧
        inBoundsLocked kMemorySize msg.header.address msg.header.transferLen.toUInt64 = true) := by
  by_cases hr : msg.header.isType .dmaReadReq = true
  · simp only [HostClient.Vars.service, hr, if_true, true_and]
    exact client_read_acceptable_iff s msg now
  · refine iff_of_true ?_ (fun h => hr h.1)
    intro rsp hrsp
    simp only [HostClient.Vars.service, hr, Bool.false_eq_true, if_false] at hrsp
    split at hrsp
    · obtain ⟨st, hreply, -⟩ := s.dmaWrite_reply msg now
      cases hreply.symm.trans hrsp
      exact (acceptable_iff rfl rfl rfl).2 zero_le_bound
    · split at hrsp <;> cases hrsp

/-! ## The Verilator main loop -/

/-- The state machine cannot tell that a read was refused: where it looks for the status are bits of the tag, and these
are zero. -/
def StatusLost (fab : Fabric) : Prop := (fab.complete 0 axilDecerr).2 = 0

/-- A read TLP for this address passes for one without an error. -/
def Reads (fab : Fabric) (address : BitVec 64) : Prop :=
  (∃ d, reached address.toNat = some d ∧ d.isValidRead = true) ∨ StatusLost fab

theorem memRead_status_iff (fab : Fabric) (r : Slave) (address : BitVec 64) (length : Nat) (data : BitVec 32) :
    (r.memRead fab (makeTlp false address length data)).2 = 0 ↔ Reads fab address := by
  by_cases h : ∃ d, reached address.toNat = some d ∧ d.isValidRead = true
  · obtain ⟨d, hd, hv⟩ := h
    rw [memRead_makeTlp fab r false address length data hd hv]
    exact iff_of_true rfl (.inl ⟨d, hd, hv⟩)
  · have herr : r.memRead fab (makeTlp false address length data) = fab.complete 0 axilDecerr := by
      unfold reached at h
      simp only [Slave.memRead, fab.readAddress_eq, Slave.axiRead, dwAddress_makeTlp]
      split
      · rename_i d hd
        rw [if_neg (fun hv => h ⟨d, hd, hv⟩)]
      · rfl
    rw [herr]
    exact ⟨.inr, fun hr => hr.resolve_left h⟩

def RtlReads (fab : Fabric) (address : UInt64) (length : UInt32) : Prop :=
  fab.lenPort length ∈ lengths ∧ Reads fab address.toBitVec ∧
    (fab.lenPort length = 8 → Reads fab (address.toBitVec + 4))

theorem rtlReads_of_statusLost {fab : Fabric} (h : StatusLost fab) (address : UInt64) (length : UInt32) :
    RtlReads fab address length ↔ fab.lenPort length ∈ lengths :=
  ⟨And.left, fun hlen => ⟨hlen, .inr h, fun _ => .inr h⟩⟩

theorem status_zero_iff (p : Prop) [Decidable p] : (if p then (0 : UInt32) else 3) = 0 ↔ p := by
  by_cases h : p
  · rw [if_pos h]
    exact iff_of_true rfl h
  · rw [if_neg h]
    exact iff_of_false (by decide) h

theorem mmio_read_status_iff (fab : Fabric) (s : Harness) (address : UInt64) (length : UInt32) (data : UInt64) :
    (s.mmio fab false address length data).1.elim 5 Prod.snd = 0 ↔ RtlReads fab address length := by
  by_cases hlen : fab.lenPort length ∈ lengths
  · have hn := mem_lengths.1 hlen
    by_cases h8 : fab.lenPort length = 8
    · rw [mmio_eight fab s address data false h8, if_neg nofun]
      dsimp only [Option.elim_some]
      rw [status_zero_iff, memRead_status_iff, memRead_status_iff]
      exact ⟨fun h => ⟨hlen, h.1, fun _ => h.2⟩, fun h => ⟨h.2.1, h.2.2 h8⟩⟩
    · rw [mmio_short fab s address data false rfl (by omega), if_neg nofun]
      dsimp only [Option.elim_some]
      rw [status_zero_iff, memRead_status_iff]
      exact ⟨fun h => ⟨hlen, h, fun hc => absurd hc h8⟩, fun h => h.2.1⟩
  · rw [mmio_refused fab s address data false hlen]
    exact iff_of_false (show ¬ (3 : UInt32) = 0 by decide) (fun h => hlen h.1)

theorem mmio_read_state (fab : Fabric) (s : Harness) (address : UInt64) (length : UInt32) (data : UInt64) :
    (s.mmio fab false address length data).2 = s := by
  by_cases hlen : fab.lenPort length ∈ lengths
  · have hn := mem_lengths.1 hlen
    by_cases h8 : fab.lenPort length = 8
    · rw [mmio_eight fab s address data false h8, if_neg nofun]
    · rw [mmio_short fab s address data false rfl (by omega), if_neg nofun]
  · rw [mmio_refused fab s address data false hlen]

def ReadAnswered (fab : Fabric) (msg : Message) : Prop :=
  msg.header.address = 0x1058 ∨ RtlReads fab msg.header.address (MainLoop.length msg)

theorem MainLoop.handleRead_spec {δ : Type} (fab : Fabric) (eng : Engine δ) (s : MainLoop δ) {msg : Message}
    (hr : msg.header.isType .mmioReadReq = true) (c : Script) :
    let a := access (Alex.env fab eng.host) s.shadow false msg.header.address (MainLoop.length msg)
      (decodeLe msg.payload) ⟨s.harness, (s.engine, c)⟩
    let payload := if a.1.2 = 0 then encodeLe a.1.1 (MainLoop.length msg) else []
    (s.handle fab eng msg c).1.shadow = s.shadow ∧ (s.handle fab eng msg c).1.harness = s.harness ∧
      (s.handle fab eng msg c).2.log = c.log ++
        [.response (makeHeader .mmioReadRsp msg.header.txnId msg.header.address 0
          (if a.1.2 = 0 then .success else .errorGeneric) (eng.simTime s.engine) (UInt32.ofNat payload.length)
          kFlagIsResponse (UInt32.ofNat payload.length)) payload] ∧
      (a.1.2 = 0 ↔ ReadAnswered fab msg) := by
  intro a payload
  have hreset : msg.header.isType .resetReq = false := Header.isType_of_ne hr (by decide)
  have hwrite : msg.header.isType .mmioWriteReq = false := Header.isType_of_ne hr (by decide)
  have hstate : a.2 = ⟨s.harness, (s.engine, c)⟩ := by
    unfold a access
    split
    · rfl
    · exact congrArg (Sim.mk · (s.engine, c)) (mmio_read_state fab s.harness _ _ _)
  have hhandle : s.handle fab eng msg c = (⟨s.shadow, a.2.harness, a.2.host.1⟩, a.2.host.2.sendResponse
      (makeHeader .mmioReadRsp msg.header.txnId msg.header.address 0 (if a.1.2 = 0 then .success else .errorGeneric)
        (eng.simTime a.2.host.1) (UInt32.ofNat payload.length) kFlagIsResponse (UInt32.ofNat payload.length))
      payload) := by
    simp only [MainLoop.handle, Verilator.handle, hreset, hwrite, hr, Bool.false_eq_true, if_false, if_true]
    rfl
  rw [hhandle, hstate]
  refine ⟨rfl, rfl, rfl, ?_⟩
  unfold a ReadAnswered
  rw [access_status]
  by_cases ha : msg.header.address = 0x1058
  · rw [if_pos ⟨rfl, ha⟩]
    exact iff_of_true rfl (.inl ha)
  · rw [if_neg (fun h => ha h.2), mmio_read_status_iff]
    exact ⟨.inr, fun h => h.resolve_left ha⟩

@[simp] theorem length_encodeLe (value : UInt64) (length : UInt32) : (encodeLe value length).length = length.toNat := by
  simp [encodeLe]

theorem handleRead_log {δ : Type} (fab : Fabric) (eng : Engine δ) (s : MainLoop δ) {msg : Message}
    (hr : msg.header.isType .mmioReadReq = true) (answers : List (Option Message)) :
    ∃ h p, (s.handle fab eng msg ⟨answers, []⟩).2.log = [.response h p] ∧ h.magic = kProtocolMagic ∧
      h.version = kProtocolVersion ∧ h.headerLen.toNat = kHeaderSize ∧
      (h.payloadLen = MainLoop.length msg ∧
          (msg.header.address = 0x1058 ∨ RtlReads fab msg.header.address (MainLoop.length msg)) ∨
        h.payloadLen = 0 ∧
          ¬ (msg.header.address = 0x1058 ∨ RtlReads fab msg.header.address (MainLoop.length msg))) := by
  obtain ⟨-, -, hlog, hstatus⟩ := s.handleRead_spec fab eng hr ⟨answers, []⟩
  refine ⟨_, _, hlog, rfl, rfl, rfl, ?_⟩
  rw [← ReadAnswered, ← hstatus]
  dsimp only [makeHeader]
  split
  · rename_i hok
    refine .inl ⟨?_, hok⟩
    rw [length_encodeLe, UInt32.ofNat_toNat]
  · rename_i hbad
    exact .inr ⟨rfl, hbad⟩

/-- **The main loop answers a read with an acceptable header unless it answers one over 16 MiB.** -/
theorem mainLoop_acceptable_iff {δ : Type} (fab : Fabric) (eng : Engine δ) (s : MainLoop δ) {msg : Message}
    (hr : msg.header.isType .mmioReadReq = true) (answers : List (Option Message)) :
    (∀ h p, .response h p ∈ (s.handle fab eng msg ⟨answers, []⟩).2.log → Acceptable (serializeHeader h) h.payloadLen) ↔
      ¬ (kMaxPayloadSize < MainLoop.length msg ∧
        (msg.header.address = 0x1058 ∨ RtlReads fab msg.header.address (MainLoop.length msg))) := by
  obtain ⟨h, p, hlog, hmagic, hversion, hlen, hpay⟩ := handleRead_log fab eng s hr answers
  have hone : (∀ h p, Out.response h p ∈ (s.handle fab eng msg ⟨answers, []⟩).2.log →
      Acceptable (serializeHeader h) h.payloadLen) ↔ h.payloadLen ≤ kMaxPayloadSize := by
    rw [← acceptable_iff hmagic hversion hlen, hlog]
    constructor
    · intro hall
      exact hall h p (List.mem_singleton.2 rfl)
    · intro hacc h' p' hmem
      cases List.mem_singleton.1 hmem
      exact hacc
  rw [hone]
  rcases hpay with ⟨hpay, hok⟩ | ⟨hpay, hok⟩
  · rw [hpay]
    exact ⟨fun hle hc => UInt32.not_le.2 hc.1 hle, fun hc => UInt32.not_lt.1 (fun hbig => hc ⟨hbig, hok⟩)⟩
  · rw [hpay]
    exact iff_of_true zero_le_bound (fun hc => hok hc.2)

/-! ## Every sender -/

/-- **Which headers a peer would refuse.**  QEMU, the host client and, for MMIO reads, the main loop send only
acceptable headers exactly when they do not answer a read of more than 16 MiB: one that `max-transfer` lets pass and
whose DMA succeeds, one inside the 64 MiB of the client, one of the DMA status register, or one whose length the RTL
takes for a short one and that reaches registers only or an RTL that cannot tell. -/
theorem payload_bound_iff {δ : Type} (fab : Fabric) (eng : Engine δ) :
    (∀ (maxTransfer : UInt32) (w : Qemu.MicsMessage) (ok : Bool) (data : List UInt8) (now : UInt64),
      (∀ r, .send r ∈ Qemu.workEffects maxTransfer w ok data now →
          Acceptable (Qemu.micsEncodeHeader r.h) r.h.payloadLen) ↔
        ¬ (w.h.type = Qemu.MicsType.dmaReadReq.code ∧ kMaxPayloadSize < w.h.transferLen ∧
          w.h.transferLen ≤ maxTransfer ∧ ok = true)) ∧
    (∀ (s : Client) (msg : Message) (now : UInt64),
      (∀ rsp, (s.service msg now).reply = some rsp → Acceptable (serializeHeader rsp.header) rsp.header.payloadLen) ↔
        ¬ (msg.header.isType .dmaReadReq = true ∧ kMaxPayloadSize < msg.header.transferLen ∧
          inBoundsLocked kMemorySize msg.header.address msg.header.transferLen.toUInt64 = true)) ∧
    (∀ (s : MainLoop δ) (msg : Message) (answers : List (Option Message)), msg.header.isType .mmioReadReq = true →
      ((∀ h p, .response h p ∈ (s.handle fab eng msg ⟨answers, []⟩).2.log →
          Acceptable (serializeHeader h) h.payloadLen) ↔
        ¬ (kMaxPayloadSize < MainLoop.length msg ∧
          (msg.header.address = 0x1058 ∨ RtlReads fab msg.header.address (MainLoop.length msg))))) :=
  ⟨qemu_acceptable_iff, client_acceptable_iff, fun s _ answers hr => mainLoop_acceptable_iff fab eng s hr answers⟩

theorem payload_bound_iff_read :
    ∀ h p, .response h p ∈ (MainLoop.handle Fabric.plain Engine.idle ⟨{}, {}, ()⟩ (barRead 0x24 4) ⟨[], []⟩).2.log →
      Acceptable (serializeHeader h) h.payloadLen :=
  ((payload_bound_iff Fabric.plain Engine.idle).2.2 ⟨{}, {}, ()⟩ (barRead 0x24 4) [] rfl).2
    (fun h => absurd h.1 (by decide))

/-- Each sender is made to announce a payload of more than 16 MiB; the main loop also for an address without a
register. -/
theorem payload_bound_exceeded :
    (∃ maxTransfer w ok data now r, .send r ∈ Qemu.workEffects maxTransfer w ok data now ∧
      ¬ Acceptable (Qemu.micsEncodeHeader r.h) r.h.payloadLen) ∧
    (∃ (s : Client) (msg : Message) (now : UInt64) (rsp : Message), (s.service msg now).reply = some rsp ∧
      ¬ Acceptable (serializeHeader rsp.header) rsp.header.payloadLen) ∧
    (∃ (msg : Message) (h : Header) (p : List UInt8), msg.header.isType .mmioReadReq = true ∧
      .response h p ∈ (MainLoop.handle Fabric.plain Engine.idle ⟨{}, {}, ()⟩ msg ⟨[], []⟩).2.log ∧
      ¬ Acceptable (serializeHeader h) h.payloadLen) ∧
    (∃ (h : Header) (p : List UInt8),
      .response h p ∈ (MainLoop.handle Fabric.plain Engine.idle ⟨{}, {}, ()⟩ (barRead 0x40 0x1000004) ⟨[], []⟩).2.log ∧
      ¬ Acceptable (serializeHeader h) h.payloadLen) := by
  refine ⟨?_, ?_, ?_, ?_⟩
  · have h := (qemu_acceptable_iff 0x2000000 ⟨⟨7, 0, 0, 1, 0, 0, 0, 0, 0x1000001⟩, []⟩ true [] 0).not.2
      (not_not_intro ⟨rfl, by decide, by decide, rfl⟩)
    simp only [not_forall, exists_prop] at h
    exact ⟨_, _, _, _, _, h⟩
  · let s : Client := ⟨{ memory := ⟨kMemorySize, fun _ => 0⟩ }, rfl⟩
    have h := (client_acceptable_iff s
      ⟨makeHeader .dmaReadReq 1 0 0 .success 0 0 kFlagNone 0x1000001, []⟩ 0).not.2
      (not_not_intro ⟨rfl, by decide, by decide⟩)
    simp only [not_forall, exists_prop] at h
    exact ⟨s, _, _, h⟩
  · have h := (mainLoop_acceptable_iff Fabric.plain Engine.idle ⟨{}, {}, ()⟩
      (show (barRead 0x1058 0x1000001).header.isType .mmioReadReq = true from rfl) []).not.2
      (not_not_intro ⟨by decide, .inl rfl⟩)
    simp only [not_forall, exists_prop] at h
    obtain ⟨hd, p, hmem, hnot⟩ := h
    exact ⟨_, hd, p, rfl, hmem, hnot⟩
  · have hreads : RtlReads Fabric.plain 0x40 (MainLoop.length (barRead 0x40 0x1000004)) :=
      (rtlReads_of_statusLost (show StatusLost Fabric.plain from rfl) _ _).2 (by decide)
    have h := (mainLoop_acceptable_iff Fabric.plain Engine.idle ⟨{}, {}, ()⟩
      (show (barRead 0x40 0x1000004).header.isType .mmioReadReq = true from rfl) []).not.2
      (not_not_intro ⟨by decide, .inr hreads⟩)
    simp only [not_forall, exists_prop] at h
    exact h

end Endpoint
end Vip
