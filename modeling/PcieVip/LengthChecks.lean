import PcieVip.DoorbellDma
import PcieVip.HostClient
import PcieVip.QemuWork
/-!
# LengthChecks — write requests whose lengths disagree

`transfer_len` and `payload_len` are two fields, and the protocol asks every receiver to validate both.  QEMU compares
them.  The others take one of the two: the host client and the software model the payload's, the DPI layer and the RTL
behind it `transfer_len`, the Verilator main loop `transfer_len` for the access and the payload for its own variables.
So they refuse such a write only where that length, or the address, is refused anyway (`mismatch_refused_iff`).
-/
namespace Vip
namespace Endpoint

open Alex Bytes Ics Verilator Word
open HostClient (Client inBoundsLocked kMemorySize)

/-! ## A refused write -/

/-- A write request whose lengths disagree. -/
structure Mismatch (msg : Message) : Prop where
  payload : msg.payload.length = msg.header.payloadLen.toNat
  differ  : msg.header.transferLen ≠ msg.header.payloadLen

/-- One answer, which is not SUCCESS, and no request. -/
def Refused (log : List Out) : Prop := ∃ h, log = [.response h []] ∧ h.isStatus .success = false

theorem refused_response_iff (h : Header) (rest : List Out) :
    Refused (.response h [] :: rest) ↔ h.isStatus .success = false ∧ rest = [] := by
  constructor
  · rintro ⟨h', hlog, hst⟩
    simp only [List.cons.injEq, Out.response.injEq, and_true] at hlog
    obtain ⟨rfl, rfl⟩ := hlog
    exact ⟨hst, rfl⟩
  · rintro ⟨hst, rfl⟩
    exact ⟨h, rfl, hst⟩

def Out.succeeds : Out → Bool
  | .response h _    => h.isStatus .success
  | .request _ _ _ _ => false

theorem not_refused {log : List Out} (h : log.any Out.succeeds = true) : ¬ Refused log := by
  rintro ⟨hd, rfl, hst⟩
  simp [Out.succeeds, hst] at h

theorem isStatus_makeHeader_false {st : StatusCode} (t : MessageType) (x a b : UInt64) (n : UInt64) (p : UInt32)
    (f : UInt16) (l : UInt32) : (makeHeader t x a b st n p f l).isStatus .success = false ↔ st ≠ .success := by
  rw [isStatus_makeHeader, decide_eq_false_iff_not]

/-! ## QEMU and the host client -/

/-- **QEMU refuses the write and touches no memory.** -/
theorem qemu_refuses {msg : Message} (hw : msg.header.isType .dmaWriteReq = true) (hm : Mismatch msg)
    (maxTransfer : UInt32) (ok : Bool) (data : List UInt8) (now : UInt64) :
    ∃ r : Qemu.MicsMessage, Qemu.workEffects maxTransfer ⟨Qemu.ofIcs msg.header, msg.payload⟩ ok data now = [.send r] ∧
      r.h.status ≠ Qemu.micsStatusSuccess := by
  have htype : (Qemu.ofIcs msg.header).type = Qemu.MicsType.dmaWriteReq.code := (msg.header.isType_iff _).1 hw
  have hread : Qemu.MicsType.dmaWriteReq.code ≠ Qemu.MicsType.dmaReadReq.code := by decide
  have hne : ¬ (Qemu.ofIcs msg.header).transferLen = (Qemu.ofIcs msg.header).payloadLen := hm.differ
  simp only [Qemu.workEffects, Joint.processWork, htype, hread, if_false, if_true, hne, and_false, false_and,
    List.nil_append]
  exact ⟨_, rfl, show (6 : UInt32) ≠ Qemu.micsStatusSuccess by decide⟩

/-- **The host client refuses it only out of bounds.** -/
theorem client_refuses_iff {msg : Message} (hw : msg.header.isType .dmaWriteReq = true) (s : Client) (now : UInt64) :
    ((∃ rsp, (s.service msg now).reply = some rsp ∧ rsp.header.isStatus .success = false) ∧
        (s.after msg now).memory = s.memory) ↔
      inBoundsLocked kMemorySize msg.header.address (UInt64.ofNat msg.payload.length) = false := by
  have hr : msg.header.isType .dmaReadReq = false := Header.isType_of_ne hw (by decide)
  have hserve : s.service msg now = s.dmaWrite msg now := by
    rw [HostClient.Vars.service, hr, if_neg Bool.false_ne_true, if_pos hw]
  obtain ⟨status, hreply, hiff, hmem⟩ := s.dmaWrite_reply msg now
  rw [s.size] at hiff
  change _ ∧ (s.service msg now).vars.memory = s.memory ↔ _
  rw [hserve, hreply, hmem, ← Bool.not_eq_true, ← hiff]
  constructor
  · rintro ⟨⟨rsp, ⟨⟩, hst⟩, -⟩
    exact (isStatus_makeHeader_false ..).1 hst
  · intro hne
    exact ⟨⟨_, rfl, (isStatus_makeHeader_false ..).2 hne⟩, if_neg hne⟩

/-! ## The software model and the endpoint model -/

def Software.decodes (addr : UInt64) (len : UInt32) : Prop :=
  (len = 4 ∧ (addr = kCcReg ∨ addr = kAqaReg ∨ addr = kSq0Doorbell)) ∨
    (len = 8 ∧ (addr = kAdminSqReg ∨ addr = kAdminCqReg))

theorem Software.store_refused_iff (s : Software) (addr : UInt64) (payload : List UInt8) :
    ((s.store addr payload).1 ≠ .success ↔ ¬ Software.decodes addr (UInt32.ofNat payload.length)) ∧
      ((s.store addr payload).1 ≠ .success → (s.store addr payload).2 = s) := by
  unfold Software.store
  generalize UInt32.ofNat payload.length = len
  dsimp only
  by_cases h : Software.decodes addr len
  · have hok : ∀ x : StatusCode × Software, x.1 = .success → (x.1 ≠ .success ↔ ¬ Software.decodes addr len) ∧
        (x.1 ≠ .success → x.2 = s) :=
      fun x hx => ⟨iff_of_false (not_not_intro hx) (not_not_intro h), fun hne => absurd hx hne⟩
    apply hok
    rcases h with ⟨rfl, rfl | rfl | rfl⟩ | ⟨rfl, rfl | rfl⟩ <;> rfl
  · have hbad : ∀ x : StatusCode × Software, x.1 ≠ .success ∧ x.2 = s → (x.1 ≠ .success ↔ ¬ Software.decodes addr len) ∧
        (x.1 ≠ .success → x.2 = s) := fun x hx => ⟨iff_of_true hx.1 h, fun _ => hx.2⟩
    apply hbad
    rw [if_neg (fun hc : addr = kCcReg ∧ len = 4 => h (.inl ⟨hc.2, .inl hc.1⟩)),
      if_neg (fun hc : addr = kAdminSqReg ∧ len = 8 => h (.inr ⟨hc.2, .inl hc.1⟩)),
      if_neg (fun hc : addr = kAdminCqReg ∧ len = 8 => h (.inr ⟨hc.2, .inr hc.1⟩)),
      if_neg (fun hc : addr = kAqaReg ∧ len = 4 => h (.inl ⟨hc.2, .inr (.inl hc.1)⟩)),
      if_neg (fun hc : addr = kSq0Doorbell ∧ len = 4 => h (.inl ⟨hc.2, .inr (.inr hc.1)⟩))]
    split_ifs <;> exact ⟨nofun, rfl⟩

/-- **The software model refuses it unless address and payload size are a register's.** -/
theorem software_refuses_iff {msg : Message} (hw : msg.header.isType .mmioWriteReq = true) {s : Software}
    (hidle : s.doorbellRung = false) (answers : List (Option Message)) :
    (Refused (s.handle msg ⟨answers, []⟩).2.log ∧ ∃ t, (s.handle msg ⟨answers, []⟩).1 = { s with simTime := t }) ↔
      ¬ Software.decodes msg.header.address (UInt32.ofNat msg.payload.length) := by
  have hreset : msg.header.isType .resetReq = false := Header.isType_of_ne hw (by decide)
  obtain ⟨⟨t, hs⟩, hlog⟩ := (s.tick 15).handleMmioWrite_spec msg ⟨answers, []⟩
  obtain ⟨hiff, hkeep⟩ := (s.tick 15).store_refused_iff msg.header.address msg.payload
  simp only [Software.handle, hreset, hw, Bool.false_eq_true, if_false, if_true]
  rw [hlog, hs, List.nil_append, refused_response_iff, isStatus_makeHeader_false, ← hiff]
  constructor
  · rintro ⟨⟨hst, -⟩, -⟩
    exact hst
  · intro hst
    have hbell : ((s.tick 15).store msg.header.address msg.payload).2.doorbellRung = false := by
      rw [hkeep hst]
      exact hidle
    refine ⟨⟨hst, if_neg (by rw [hbell]; decide)⟩, t, ?_⟩
    rw [hkeep hst, ← hidle]
    rfl

def NvmeRegs.decodes (addr : UInt64) : Prop :=
  addr = kCcReg ∨ addr = kAqaReg ∨ addr = kAdminSqReg ∨ addr = kAdminCqReg ∨ addr = kSq0Doorbell

theorem NvmeRegs.write_refused_iff (r : NvmeRegs) (addr wdata : UInt64) :
    ((r.write addr wdata).1.addrInvalid = true ↔ ¬ NvmeRegs.decodes addr) ∧
      ((r.write addr wdata).1.addrInvalid = true →
        (r.write addr wdata).2 = r ∧ (r.write addr wdata).1.doorbell = false) := by
  by_cases h : NvmeRegs.decodes addr
  · have hok : (r.write addr wdata).1.addrInvalid = false := by
      rcases h with rfl | rfl | rfl | rfl | rfl <;> rfl
    rw [hok]
    exact ⟨iff_of_false nofun (not_not_intro h), nofun⟩
  · have hbad : r.write addr wdata = ({ addrInvalid := true }, r) := by
      simp only [NvmeRegs.decodes, not_or] at h
      rw [NvmeRegs.write, if_neg h.1, if_neg h.2.1, if_neg h.2.2.1, if_neg h.2.2.2.1, if_neg h.2.2.2.2, ite_self]
    rw [hbad]
    exact ⟨iff_of_true rfl h, fun _ => ⟨rfl, rfl⟩⟩

/-- **The endpoint model refuses it unless the address is a register's.** -/
theorem endpoint_refuses_iff (undef : Undef) {msg : Message} (hw : msg.header.isType .mmioWriteReq = true)
    (r : NvmeRegs) (answers : List (Option Message)) :
    (Refused (r.pollAndDispatch undef msg ⟨answers, []⟩).2.log ∧ (r.pollAndDispatch undef msg ⟨answers, []⟩).1 = r) ↔
      ¬ NvmeRegs.decodes msg.header.address := by
  obtain ⟨hs, hlog⟩ := r.handleMmioWrite_spec msg.header.txnId msg.header.address
    (payloadBytes undef msg.payload msg.header.transferLen) ⟨answers, []⟩
  obtain ⟨hiff, hkeep⟩ := r.write_refused_iff msg.header.address
    (decodeLe (payloadBytes undef msg.payload msg.header.transferLen))
  simp only [NvmeRegs.pollAndDispatch, hw, if_true]
  rw [hlog, hs, List.nil_append, refused_response_iff, isStatus_makeHeader_false, ← hiff]
  cases hinv : (r.write msg.header.address
    (decodeLe (payloadBytes undef msg.payload msg.header.transferLen))).1.addrInvalid
  · exact iff_of_false (fun h => h.1.1 rfl) nofun
  · obtain ⟨hregs, hbell⟩ := hkeep hinv
    exact iff_of_true ⟨⟨nofun, if_neg (by rw [hbell]; decide)⟩, hregs⟩ rfl

/-! ## Writes that reach a register of the RTL -/

/-- A TLP for this address writes a register. -/
def Takes (address : BitVec 64) : Prop := ∃ d, reached address.toNat = some d ∧ d.isValidWrite = true

section Tlp

variable (fab : Fabric) {address : BitVec 64} (length : Nat) (data : BitVec 32)

theorem memWrite_refused (h : ¬ Takes address) (r : Slave) :
    r.memWrite fab (makeTlp true address length data) = ⟨axilDecerr, r, false⟩ := by
  rw [memWrite_makeTlp]
  split
  · rename_i d hd
    exact if_neg (fun hv => h ⟨d, hd, hv⟩)
  · rfl

theorem memWrite_taken (h : Takes address) (r : Slave) :
    (r.memWrite fab (makeTlp true address length data)).bresp = 0 := by
  obtain ⟨d, hd, hv⟩ := h
  rw [memWrite_makeTlp, hd]
  simp only [hv, if_true]
  rfl

theorem byteAt_store (r : Slave) {d : Dw} (hd : d.isValidWrite = true) (wdata : BitVec 32) {wstrb : BitVec 4}
    (h3 : wstrb.getLsbD 3 = true) : byteAt ((r.store d wdata wstrb).word d) 3 = byteAt wdata 3 := by
  have happly : ∀ old, byteAt (applyWstrb old wdata wstrb) 3 = byteAt wdata 3 := by
    intro old
    rw [byteAt_applyWstrb _ _ _ (by decide), if_pos h3]
  by_cases hp : d.plain = true
  · rw [store_plain r hp, word_put r (Dw.valid_of_plain hp).2.2.1, if_pos rfl, happly]
  · cases d with
    | cc       => exact happly r.cc
    | doorbell => rfl
    | cap      => cases hd
    | csts     => cases hd
    | _        => exact absurd rfl hp

theorem memWrite_changes (h : Takes address) :
    ∃ r : Slave, (r.memWrite fab (makeTlp true address 4 data)).slave ≠ r := by
  obtain ⟨d, hd, hv⟩ := h
  have hcap : d ≠ .cap := by
    rintro rfl
    cases hv
  have hlane : (byteEnable (address.toNat % 4) 4).getLsbD 3 = true := by
    rw [byteEnable_getLsbD _ _ (by decide), decide_eq_true_eq]
    omega
  have hnot : ∀ x : BitVec 8, ~~~ x ≠ x := by decide
  refine ⟨({} : Slave).put d (~~~ data), fun heq => ?_⟩
  rw [memWrite_makeTlp, hd] at heq
  simp only [hv, if_true] at heq
  have hbyte := byteAt_store (({} : Slave).put d (~~~ data)) hv data hlane
  rw [heq, word_put _ hcap, if_pos rfl] at hbyte
  refine hnot (byteAt data 3) (Eq.trans ?_ hbyte)
  ext i hi
  simp [byteAt]
  omega

end Tlp

/-! ## mini_ics_alex_tb -/

namespace AlexTb

variable (fab : Fabric) (undef : Undef) (s : AlexTb) {msg : Message}

theorem pollOne_write (hw : msg.header.isType .mmioWriteReq = true) (c : Script) :
    s.pollOne fab undef msg c = s.handleMmioWrite fab undef msg c := by
  have hr : msg.header.isType .mmioReadReq = false := Header.isType_of_ne hw (by decide)
  simp only [pollOne, hr, hw, Bool.false_eq_true, if_false, if_true]

theorem sent_refused (hlen : msg.header.transferLen.toNat ∈ lengths) (h : ¬ Takes msg.header.address.toBitVec) :
    s.sent fab undef msg = (false, s.slave) := by
  have hn := mem_lengths.1 hlen
  unfold sent
  dsimp only
  by_cases h8 : msg.header.transferLen.toNat = 8
  · rw [h8, writeChunks_eight]
    simp only [memWrite_refused fab _ _ h]
    rfl
  · rw [writeChunks_short fab _ _ _ (by omega)]
    simp only [memWrite_refused fab _ _ h]
    rfl

theorem sent_taken (hlen : msg.header.transferLen.toNat ∈ lengths) (h : Takes msg.header.address.toBitVec) :
    ∃ s : AlexTb, (s.sent fab undef msg).1 = true ∨ (s.sent fab undef msg).2 ≠ s.slave := by
  have hn := mem_lengths.1 hlen
  unfold sent
  dsimp only
  by_cases h8 : msg.header.transferLen.toNat = 8
  · obtain ⟨r, hr⟩ := memWrite_changes fab
      (lo (decodeLe ((payloadBytes undef msg.payload msg.header.transferLen).take 4)).toBitVec) h
    refine ⟨{ slave := r }, ?_⟩
    rw [h8, writeChunks_eight]
    dsimp only
    rw [if_pos (memWrite_taken fab _ _ h r)]
    by_cases hnext : Takes (msg.header.address.toBitVec + 4)
    · exact .inl (decide_eq_true (memWrite_taken fab _ _ hnext _))
    · right
      rw [memWrite_refused fab _ _ hnext]
      exact hr
  · refine ⟨{}, .inl ?_⟩
    rw [writeChunks_short fab _ _ _ (by omega)]
    exact decide_eq_true (memWrite_taken fab _ _ h _)

/-- **`mini_ics_alex_tb` refuses it when it refuses `transfer_len` or the address.** -/
theorem refuses_iff (hw : msg.header.isType .mmioWriteReq = true) :
    (∀ (s : AlexTb) (answers : List (Option Message)), Refused (s.pollOne fab undef msg ⟨answers, []⟩).2.log ∧
        (s.pollOne fab undef msg ⟨answers, []⟩).1 = s) ↔
      msg.header.transferLen.toNat ∉ lengths ∨ ¬ Takes msg.header.address.toBitVec := by
  constructor
  · intro h
    refine or_iff_not_imp_left.2 (fun hlen htakes => ?_)
    have hlen := not_not.1 hlen
    obtain ⟨s, hs⟩ := sent_taken fab undef hlen htakes
    obtain ⟨hrefused, hstate⟩ := h s []
    obtain ⟨hspec, hlog⟩ := handleMmioWrite_spec fab undef s msg ⟨[], []⟩
    rw [pollOne_write fab undef s hw] at hrefused hstate
    rw [hlog, List.nil_append, refused_response_iff, isStatus_makeHeader_false] at hrefused
    rw [hspec, if_pos hlen] at hstate
    rcases hs with hok | hne
    · exact hrefused.1 ((s.writeStatus_success fab undef msg).2 ⟨hlen, hok⟩)
    · exact hne (congrArg AlexTb.slave hstate)
  · intro h s answers
    obtain ⟨hspec, hlog⟩ := handleMmioWrite_spec fab undef s msg ⟨answers, []⟩
    have hstatus : s.writeStatus fab undef msg ≠ .success := by
      rw [Ne, writeStatus_success]
      rintro ⟨hlen, hok⟩
      rw [sent_refused fab undef s hlen (h.resolve_left (not_not_intro hlen))] at hok
      cases hok
    rw [pollOne_write fab undef s hw, hlog, List.nil_append, refused_response_iff, isStatus_makeHeader_false, hspec]
    refine ⟨⟨hstatus, if_neg (fun hc => hstatus hc.1)⟩, ?_⟩
    by_cases hlen : msg.header.transferLen.toNat ∈ lengths
    · rw [if_pos hlen, if_neg hstatus, if_neg hstatus,
        sent_refused fab undef s hlen (h.resolve_left (not_not_intro hlen))]
    · rw [if_neg hlen]

end AlexTb

/-! ## The Verilator main loop -/

/-- The addresses at which the main loop does something of its own. -/
def Watched (address : UInt64) : Prop :=
  address ∈ ([0x28, 0x30, 0x1040, 0x1044, 0x1048, 0x104c, 0x1050, 0x105c, 0x1054, 0x1000] : List UInt64)

instance : DecidablePred Watched := fun address => inferInstanceAs (Decidable (address ∈ _))

def RtlTakes (fab : Fabric) (address : UInt64) (length : UInt32) : Prop :=
  fab.lenPort length ∈ lengths ∧
    (Takes address.toBitVec ∨ (fab.lenPort length = 8 ∧ Takes (address.toBitVec + 4)))

theorem mmio_not_taken (fab : Fabric) (s : Harness) {address : UInt64} {length : UInt32} (data : UInt64)
    (h : ¬ RtlTakes fab address length) : s.mmio fab true address length data = (some (0, 3), s) := by
  by_cases hlen : fab.lenPort length ∈ lengths
  · have hn := mem_lengths.1 hlen
    have hfirst : ¬ Takes address.toBitVec := fun ht => h ⟨hlen, .inl ht⟩
    by_cases h8 : fab.lenPort length = 8
    · have hsecond : ¬ Takes (address.toBitVec + 4) := fun ht => h ⟨hlen, .inr ⟨h8, ht⟩⟩
      rw [mmio_eight fab s address data true h8, if_pos rfl]
      simp only [memWrite_refused fab _ _ hfirst, memWrite_refused fab _ _ hsecond, Bool.or_false]
      rfl
    · rw [mmio_short fab s address data true rfl (by omega), if_pos rfl]
      simp only [memWrite_refused fab _ _ hfirst, Bool.or_false]
      rfl
  · exact mmio_refused fab s address data true hlen

theorem mmio_taken (fab : Fabric) {address : UInt64} {length : UInt32} (data : UInt64)
    (h : RtlTakes fab address length) :
    ∃ s : Harness, (s.mmio fab true address length data).1.elim 5 Prod.snd = 0 ∨
      (s.mmio fab true address length data).2.slave ≠ s.slave := by
  obtain ⟨hlen, ht⟩ := h
  have hn := mem_lengths.1 hlen
  by_cases h8 : fab.lenPort length = 8
  · simp only [mmio_eight fab _ address data true h8, if_true]
    by_cases hfirst : Takes address.toBitVec
    · obtain ⟨r, hr⟩ := memWrite_changes fab (lo data.toBitVec) hfirst
      refine ⟨⟨r, false⟩, ?_⟩
      by_cases hsecond : Takes (address.toBitVec + 4)
      · exact .inl (if_pos ⟨memWrite_taken fab _ _ hfirst r, memWrite_taken fab _ _ hsecond _⟩)
      · right
        rw [memWrite_refused fab _ _ hsecond]
        exact hr
    · have hsecond := (ht.resolve_left hfirst).2
      obtain ⟨r, hr⟩ := memWrite_changes fab (hi data.toBitVec) hsecond
      refine ⟨⟨r, false⟩, .inr ?_⟩
      rw [memWrite_refused fab _ _ hfirst]
      exact hr
  · have hfirst : Takes address.toBitVec := ht.resolve_right (fun hx => h8 hx.1)
    refine ⟨{}, .inl ?_⟩
    rw [mmio_short fab _ address data true rfl (by omega), if_pos rfl]
    exact if_pos (memWrite_taken fab _ _ hfirst _)

theorem changes_of_eq {address data : UInt64} (v w : Shadow) (hne : v ≠ w)
    (heq : v.assign address data = w.assign address data) : ∃ v : Shadow, v.assign address data ≠ v := by
  refine Classical.byContradiction (fun h => hne ?_)
  have hfix : ∀ x : Shadow, x.assign address data = x := fun x => Classical.byContradiction (fun hx => h ⟨x, hx⟩)
  rw [← hfix v, heq, hfix]

theorem assign_changes {address : UInt64} (data : UInt64) (h : Watched address) (ht : address ≠ 0x1054)
    (hb : address ≠ 0x1000) : ∃ v : Shadow, v.assign address data ≠ v := by
  simp only [Watched, List.mem_cons, List.not_mem_nil, or_false] at h
  rcases h with rfl | rfl | rfl | rfl | rfl | rfl | rfl | rfl | rfl | rfl
  · exact changes_of_eq { asq := 0 } { asq := 1 } (by decide) rfl
  · exact changes_of_eq { acq := 0 } { acq := 1 } (by decide) rfl
  · exact changes_of_eq { descBase := 0 } { descBase := 1 } (by decide) rfl
  · exact changes_of_eq { descBase := 0 } { descBase := 0x100000000 } (by decide) rfl
  · exact changes_of_eq { cplBase := 0 } { cplBase := 1 } (by decide) rfl
  · exact changes_of_eq { cplBase := 0 } { cplBase := 0x100000000 } (by decide) rfl
  · exact changes_of_eq { descCount := 0 } { descCount := 1 } (by decide) rfl
  · exact changes_of_eq { dmaControl := 0 } { dmaControl := 1 } (by decide) rfl
  · exact absurd rfl ht
  · exact absurd rfl hb

theorem assign_unwatched (v : Shadow) {address : UInt64} (data : UInt64) (h : ¬ Watched address) :
    v.assign address data = v := by
  simp only [Watched, List.mem_cons, List.not_mem_nil, or_false, not_or] at h
  obtain ⟨h1, h2, h3, h4, h5, h6, h7, h8, -, -⟩ := h
  rw [Shadow.assign, if_neg h1, if_neg h2, if_neg h3, if_neg h4, if_neg h5, if_neg h6, if_neg h7, if_neg h8]

def longRing : Shadow := { dmaControl := 1, descCount := 2000 }

theorem tail_changes {δ : Type} (fab : Fabric) (eng : Engine δ) {msg : Message}
    (hw : msg.header.isType .mmioWriteReq = true) (ht : msg.header.address = 0x1054) (e : δ) (c : Script) :
    (MainLoop.handle fab eng ⟨longRing, {}, e⟩ msg c).1.shadow.dmaStatus = 1 := by
  have hr : msg.header.isType .resetReq = false := Header.isType_of_ne hw (by decide)
  have hassign : ∀ data, longRing.assign 0x1054 data = longRing := fun _ => rfl
  have hrun : ∀ (data : UInt64) (x : Sim (δ × Script)),
      (longRing.tailDoorbell (Alex.env fab eng.host) 0x1054 data x).1.dmaStatus = 1 := by
    intro data x
    have hguard : (2000 : UInt32) = 0 ∨ (2000 : UInt32) > 1024 ∨ data.toUInt32 < 0 ∨ data.toUInt32 - 0 > 2000 :=
      .inr (.inl (by decide))
    rw [Shadow.tailDoorbell, if_pos (by decide)]
    dsimp only [longRing]
    rw [runGenericDma, if_pos hguard]
    rfl
  simp only [MainLoop.handle, Verilator.handle, hr, hw, Bool.false_eq_true, if_false, if_true, handleWrite, ht, hassign]
  exact hrun _ _

section Kept

variable {δ : Type} [Inhabited δ] {fab : Fabric} {eng : Engine δ} {msg : Message}

theorem not_tail_of_kept (hw : msg.header.isType .mmioWriteReq = true)
    (h : ((⟨longRing, {}, default⟩ : MainLoop δ).handle fab eng msg ⟨[], []⟩).1.shadow = longRing) :
    msg.header.address ≠ 0x1054 := by
  intro ht
  have hone := tail_changes fab eng hw ht default ⟨[], []⟩
  rw [h] at hone
  cases hone

theorem not_watched_of_kept (hw : msg.header.isType .mmioWriteReq = true) (htail : msg.header.address ≠ 0x1054)
    (hbell : msg.header.address ≠ 0x1000)
    (h : ∀ v, ((⟨v, {}, default⟩ : MainLoop δ).handle fab eng msg ⟨[], []⟩).1.shadow = v) :
    ¬ Watched msg.header.address := by
  intro hwatched
  obtain ⟨v, hv⟩ := assign_changes (decodeLe msg.payload) hwatched htail hbell
  obtain ⟨hshadow, -, -⟩ := MainLoop.handleWrite_spec fab eng ⟨v, {}, default⟩ hw htail ⟨[], []⟩
  exact hv (hshadow.symm.trans (h v))

end Kept

theorem ne_of_not_watched {address b : UInt64} (h : ¬ Watched address) (hb : Watched b) : address ≠ b := by
  intro heq
  rw [heq] at h
  exact h hb

/-- **The main loop refuses it at the addresses that neither it nor the RTL knows.** -/
theorem MainLoop.refuses_iff {δ : Type} [Inhabited δ] (fab : Fabric) (eng : Engine δ) {msg : Message}
    (hw : msg.header.isType .mmioWriteReq = true) :
    (∀ (s : MainLoop δ) (answers : List (Option Message)), Refused (s.handle fab eng msg ⟨answers, []⟩).2.log ∧
        (s.handle fab eng msg ⟨answers, []⟩).1.shadow = s.shadow ∧
        (s.handle fab eng msg ⟨answers, []⟩).1.harness.slave = s.harness.slave) ↔
      ¬ Watched msg.header.address ∧ ¬ RtlTakes fab msg.header.address (MainLoop.length msg) := by
  constructor
  · intro h
    have htail := not_tail_of_kept hw (h ⟨longRing, {}, default⟩ []).2.1
    have hbell : msg.header.address ≠ 0x1000 := by
      intro hb
      obtain ⟨-, -, hlog⟩ := MainLoop.handleWrite_spec fab eng ⟨{}, ⟨{}, true⟩, default⟩ hw htail ⟨[], []⟩
      have hrefused := (h ⟨{}, ⟨{}, true⟩, default⟩ []).1
      rw [hlog, List.nil_append, refused_response_iff] at hrefused
      have hrest := hrefused.2
      rw [if_pos ⟨hb, by rw [hb, mmio_doorbell]; exact .inl rfl⟩] at hrest
      cases hrest
    refine ⟨not_watched_of_kept hw htail hbell (fun v => (h ⟨v, {}, default⟩ []).2.1), fun htakes => ?_⟩
    obtain ⟨r, hr⟩ := mmio_taken fab (decodeLe msg.payload) htakes
    obtain ⟨-, hslave, hlog⟩ := MainLoop.handleWrite_spec fab eng ⟨{}, r, default⟩ hw htail ⟨[], []⟩
    obtain ⟨hrefused, -, hkeep⟩ := h ⟨{}, r, default⟩ []
    rcases hr with hok | hne
    · rw [hlog, List.nil_append, refused_response_iff, isStatus_makeHeader_false] at hrefused
      exact hrefused.1 (if_pos hok)
    · exact hne (hslave.symm.trans hkeep)
  · rintro ⟨hwatched, htakes⟩ s answers
    have htail := ne_of_not_watched hwatched (show Watched 0x1054 by decide)
    have hbell := ne_of_not_watched hwatched (show Watched 0x1000 by decide)
    obtain ⟨hshadow, hslave, hlog⟩ := s.handleWrite_spec fab eng hw htail ⟨answers, []⟩
    rw [hshadow, hslave, hlog, assign_unwatched _ _ hwatched, List.nil_append, refused_response_iff,
      isStatus_makeHeader_false, mmio_not_taken fab s.harness (decodeLe msg.payload) htakes]
    exact ⟨⟨nofun, if_neg (fun hc => hbell hc.1)⟩, rfl, rfl⟩

/-! ## Every receiver -/

/-- **Which writes with disagreeing lengths are refused.**  QEMU refuses every such DMA write; the host client exactly
the payloads out of bounds.  An MMIO write is refused by the software model exactly if address and payload size are not
a register's, by the endpoint model exactly if the address is not, by `mini_ics_alex_tb` exactly if `transfer_len` or
the first DW is refused, and by the main loop exactly if neither it nor the RTL knows what it reaches. -/
theorem mismatch_refused_iff {δ : Type} [Inhabited δ] (fab : Fabric) (undef : Undef) (eng : Engine δ) {msg : Message}
    (hm : Mismatch msg) :
    (msg.header.isType .dmaWriteReq = true →
      (∀ maxTransfer ok data now, ∃ r : Qemu.MicsMessage,
        Qemu.workEffects maxTransfer ⟨Qemu.ofIcs msg.header, msg.payload⟩ ok data now = [.send r] ∧
          r.h.status ≠ Qemu.micsStatusSuccess) ∧
      (∀ (s : Client) (now : UInt64),
        ((∃ rsp, (s.service msg now).reply = some rsp ∧ rsp.header.isStatus .success = false) ∧
            (s.after msg now).memory = s.memory) ↔
          inBoundsLocked kMemorySize msg.header.address msg.header.payloadLen.toUInt64 = false)) ∧
    (msg.header.isType .mmioWriteReq = true →
      (∀ (s : Software) (answers : List (Option Message)), s.doorbellRung = false →
        ((Refused (s.handle msg ⟨answers, []⟩).2.log ∧ ∃ t, (s.handle msg ⟨answers, []⟩).1 = { s with simTime := t }) ↔
          ¬ Software.decodes msg.header.address msg.header.payloadLen)) ∧
      (∀ (r : NvmeRegs) (answers : List (Option Message)),
        (Refused (r.pollAndDispatch undef msg ⟨answers, []⟩).2.log ∧
            (r.pollAndDispatch undef msg ⟨answers, []⟩).1 = r) ↔ ¬ NvmeRegs.decodes msg.header.address) ∧
      ((∀ (s : AlexTb) (answers : List (Option Message)), Refused (s.pollOne fab undef msg ⟨answers, []⟩).2.log ∧
          (s.pollOne fab undef msg ⟨answers, []⟩).1 = s) ↔
        msg.header.transferLen.toNat ∉ lengths ∨ ¬ Takes msg.header.address.toBitVec) ∧
      ((∀ (s : MainLoop δ) (answers : List (Option Message)), Refused (s.handle fab eng msg ⟨answers, []⟩).2.log ∧
          (s.handle fab eng msg ⟨answers, []⟩).1.shadow = s.shadow ∧
          (s.handle fab eng msg ⟨answers, []⟩).1.harness.slave = s.harness.slave) ↔
        ¬ Watched msg.header.address ∧ ¬ RtlTakes fab msg.header.address (MainLoop.length msg))) := by
  have hlen : UInt32.ofNat msg.payload.length = msg.header.payloadLen := by rw [hm.payload, UInt32.ofNat_toNat]
  have hlen64 : UInt64.ofNat msg.payload.length = msg.header.payloadLen.toUInt64 := by
    apply UInt64.toNat_inj.1
    rw [hm.payload, UInt32.toNat_toUInt64, UInt64.toNat_ofNat_of_lt']
    exact Nat.lt_trans msg.header.payloadLen.toNat_lt (by decide)
  refine ⟨fun hw => ⟨qemu_refuses hw hm, fun s now => ?_⟩, fun hw => ⟨fun s answers hidle => ?_, ?_, ?_, ?_⟩⟩
  · rw [← hlen64]
    exact client_refuses_iff hw s now
  · rw [← hlen]
    exact software_refuses_iff hw hidle answers
  · exact endpoint_refuses_iff undef hw
  · exact AlexTb.refuses_iff fab undef hw
  · exact MainLoop.refuses_iff fab eng hw

def mismatched (type : MessageType) (address : UInt64) : Message :=
  ⟨makeHeader type 2 address 0 .success 0 4 kFlagNone 1, [1, 0, 0, 0]⟩

/-- A write to an address that is no register's, refused by the endpoint model. -/
theorem mismatch_refused_iff_unmapped :
    let msg := mismatched .mmioWriteReq 0x40
    Mismatch msg ∧ ∀ (r : NvmeRegs) (answers : List (Option Message)),
      Refused (r.pollAndDispatch (fun _ _ => 0) msg ⟨answers, []⟩).2.log ∧
        (r.pollAndDispatch (fun _ _ => 0) msg ⟨answers, []⟩).1 = r := by
  intro msg
  have hm : Mismatch msg := ⟨by decide, by decide⟩
  refine ⟨hm, fun r answers => ?_⟩
  refine (((mismatch_refused_iff Fabric.plain (fun _ _ => 0) Engine.idle hm).2 rfl).2.1 r answers).2 ?_
  rintro (h | h | h | h | h) <;> cases h

/-- AQA, written with four bytes that are announced as one: every receiver of MMIO writes takes it. -/
theorem mismatch_taken :
    ∃ msg : Message, msg.header.isType .mmioWriteReq = true ∧ Mismatch msg ∧ msg.header.Accepted ∧
      ¬ Refused (Software.handle {} msg ⟨[], []⟩).2.log ∧
      ¬ Refused (NvmeRegs.pollAndDispatch (fun _ _ => 0) {} msg ⟨[], []⟩).2.log ∧
      ¬ Refused (AlexTb.pollOne Fabric.plain (fun _ _ => 0) {} msg ⟨[], []⟩).2.log ∧
      ¬ Refused (MainLoop.handle Fabric.plain Engine.idle ⟨{}, {}, ()⟩ msg ⟨[], []⟩).2.log := by
  refine ⟨mismatched .mmioWriteReq 0x24, rfl, ⟨by decide, by decide⟩, ⟨rfl, rfl, rfl, by decide⟩, ?_, ?_, ?_, ?_⟩
  · exact not_refused (by decide)
  · exact not_refused (by decide)
  · exact not_refused (by decide)
  · exact not_refused (by decide)

end Endpoint
end Vip
