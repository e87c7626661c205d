import PcieVip.Endpoints
/-!
# DoorbellDma — what the SQ0 doorbell makes each backend send

A doorbell is answered with a DMA read of the command, a DMA write of the completion and an interrupt.  The software
model and the SystemVerilog endpoint model stop at the first request that fails (`dmaTrace`); `mini_ics_alex_tb` and the
Verilator main loop do not look at the host's answers, except that the main loop stops when the read is not answered at
all.  So the first two send an interrupt only for an acknowledged completion, and the others only if the host lets them
(`interrupt_follows_completion_iff`).
-/
namespace Vip
namespace Endpoint

open Alex Ics Verilator Word

/-! ## Acknowledged requests -/

def acked (answers : List (Option Message)) (i : Nat) : Bool := isSuccess (answers.getD i none)

def Out.asks (o : Out) (t : MessageType) : Bool :=
  match o with
  | .request type _ _ _ => type == t
  | .response _ _       => false

/-- The command read is the first request that waits for an answer and the completion write the second: the write is
sent only if the read succeeded, and the interrupt only if both did. -/
structure Orderly (answers : List (Option Message)) (log : List Out) : Prop where
  write     : ∀ o ∈ log, o.asks .dmaWriteReq = true → acked answers 0 = true
  interrupt : ∀ o ∈ log, o.asks .msiX = true → acked answers 0 = true ∧ acked answers 1 = true

def readCommand (asq : UInt64) : Out := .request .dmaReadReq asq [] 64
def writeCompletion (acq : UInt64) : Out := .request .dmaWriteReq acq mockCompletion 16
def interrupt : Out := .request .msiX 0 [] 0

/-- Each request waits for the success of the one before. -/
def dmaTrace (asq acq : UInt64) (answers : List (Option Message)) : List Out :=
  readCommand asq ::
    if acked answers 0 then writeCompletion acq :: (if acked answers 1 then [interrupt] else []) else []

section Orderly

variable {answers : List (Option Message)} {log : List Out}

theorem orderly_nil : Orderly answers [] := ⟨fun _ h => (by cases h), fun _ h => (by cases h)⟩

theorem orderly_cons {o : Out} (hw : o.asks .dmaWriteReq = false) (hi : o.asks .msiX = false) :
    Orderly answers (o :: log) ↔ Orderly answers log := by
  constructor
  · intro h
    exact ⟨fun x hx => h.write x (List.mem_cons_of_mem _ hx), fun x hx => h.interrupt x (List.mem_cons_of_mem _ hx)⟩
  · intro h
    refine ⟨List.forall_mem_cons.2 ⟨?_, h.write⟩, List.forall_mem_cons.2 ⟨?_, h.interrupt⟩⟩
    · intro ho
      rw [hw] at ho
      cases ho
    · intro ho
      rw [hi] at ho
      cases ho

theorem orderly_response (h : Header) (payload : List UInt8) :
    Orderly answers (.response h payload :: log) ↔ Orderly answers log := orderly_cons rfl rfl

theorem orderly_readCommand (asq : UInt64) : Orderly answers (readCommand asq :: log) ↔ Orderly answers log :=
  orderly_cons rfl rfl

theorem orderly_blind (acq : UInt64) :
    Orderly answers [writeCompletion acq, interrupt] ↔ acked answers 0 = true ∧ acked answers 1 = true := by
  constructor
  · intro h
    exact h.interrupt interrupt (by simp) rfl
  · intro h
    exact ⟨fun _ _ _ => h.1, fun _ _ _ => h⟩

theorem orderly_dmaTrace (asq acq : UInt64) : Orderly answers (dmaTrace asq acq answers) := by
  rw [dmaTrace, orderly_readCommand]
  by_cases h0 : acked answers 0 = true
  · rw [if_pos h0]
    by_cases h1 : acked answers 1 = true
    · rw [if_pos h1]
      exact (orderly_blind acq).2 ⟨h0, h1⟩
    · rw [if_neg h1]
      refine ⟨fun _ _ _ => h0, fun o ho hi => ?_⟩
      rw [List.mem_singleton.1 ho] at hi
      cases hi
  · rw [if_neg h0]
    exact orderly_nil

end Orderly

/-! ## The software model and the endpoint model -/

theorem sendRequestToHost_true (c : Script) (t : MessageType) (a : UInt64) (p : List UInt8) (n : UInt32) :
    c.sendRequestToHost t a p n true = (c.answers.getD 0 none, ⟨c.answers.tail, c.log ++ [.request t a p n]⟩) := by
  cases c with
  | mk answers log => cases answers <;> rfl

theorem getD_tail (answers : List (Option Message)) (i : Nat) :
    answers.tail.getD i none = answers.getD (i + 1) none := by
  cases answers <;> rfl

theorem Software.runDmaSequence_spec (s : Software) (c : Script) :
    (s.runDmaSequence c).2.log = c.log ++ dmaTrace s.asq s.acq c.answers ∧
      ∃ t, (s.runDmaSequence c).1 = { s with simTime := t } := by
  have hfirst : acked c.answers 0 = isSuccess (c.answers.getD 0 none) := rfl
  have hsecond : acked c.answers 1 = isSuccess (c.answers.getD 1 none) := rfl
  unfold Software.runDmaSequence dmaTrace
  simp only [sendRequestToHost_true, getD_tail, Software.tick, ← hfirst, ← hsecond]
  cases acked c.answers 0 with
  | false => exact ⟨rfl, _, rfl⟩
  | true  =>
    cases acked c.answers 1 with
    | false => exact ⟨by simp [readCommand, writeCompletion], _, rfl⟩
    | true  => exact ⟨by simp [Script.sendRequestToHost, readCommand, writeCompletion, interrupt], _, rfl⟩

theorem miniIcsSendRequest_await (c : Script) {t : MessageType} (ht : t = .dmaReadReq ∨ t = .dmaWriteReq) (a : UInt64)
    (p : List UInt8) (n : UInt32) :
    (miniIcsSendRequest c t a p n).2 =
        ⟨c.answers.tail, c.log ++ [.request t a (if t ≠ .dmaReadReq then p else []) n]⟩ ∧
      ((miniIcsSendRequest c t a p n).1 = 0 ↔ isSuccess (c.answers.getD 0 none) = true) := by
  unfold miniIcsSendRequest
  simp only [ht, decide_true, sendRequestToHost_true, Bool.not_true, Bool.false_eq_true, if_false]
  cases c.answers.getD 0 none with
  | none     => exact ⟨rfl, iff_of_false (show ¬ (-3 : Int) = 0 by decide) Bool.false_ne_true⟩
  | some rsp =>
    refine ⟨rfl, ?_⟩
    simp only [isSuccess]
    split
    · exact ⟨fun _ => ‹_›, fun _ => rfl⟩
    · exact ⟨fun h => absurd h (by decide), fun h => absurd h ‹_›⟩

theorem NvmeRegs.runDmaSequence_log (r : NvmeRegs) (c : Script) :
    (r.runDmaSequence c).log = c.log ++ dmaTrace r.asq r.acq c.answers := by
  obtain ⟨hread, hreadOk⟩ := miniIcsSendRequest_await c (.inl rfl) r.asq [] 64
  obtain ⟨hwrite, hwriteOk⟩ := miniIcsSendRequest_await
    ⟨c.answers.tail, c.log ++ [.request .dmaReadReq r.asq [] 64]⟩ (.inr rfl) r.acq mockCompletion 16
  have hread' : (miniIcsSendRequest c .dmaReadReq r.asq [] 64).2 =
      ⟨c.answers.tail, c.log ++ [.request .dmaReadReq r.asq [] 64]⟩ := hread
  rw [getD_tail] at hwriteOk
  unfold NvmeRegs.runDmaSequence dmaTrace acked
  simp only [ne_eq, hreadOk, hread', hwriteOk, hwrite]
  cases isSuccess (c.answers.getD 0 none) with
  | false => rfl
  | true  =>
    cases isSuccess (c.answers.getD 1 none) with
    | false => simp [readCommand, writeCompletion]
    | true  =>
      simp [miniIcsSendRequest, Script.sendRequestToHost, readCommand, writeCompletion, interrupt]

theorem Software.handleMmioWrite_spec (s : Software) (msg : Message) (c : Script) :
    let r := s.store msg.header.address msg.payload
    (∃ t, (s.handleMmioWrite msg c).1 = { r.2 with simTime := t, doorbellRung := false }) ∧
      (s.handleMmioWrite msg c).2.log = c.log ++
        .response (makeHeader .mmioWriteRsp msg.header.txnId msg.header.address 0 r.1 r.2.simTime 0
          kFlagIsResponse) [] ::
        (if r.2.doorbellRung then dmaTrace r.2.asq r.2.acq c.answers else []) := by
  intro r
  unfold Software.handleMmioWrite
  dsimp only
  by_cases hbell : r.2.doorbellRung = true
  · rw [if_pos hbell, if_pos hbell]
    obtain ⟨hlog, t, hs⟩ := Software.runDmaSequence_spec { r.2 with doorbellRung := false } _
    exact ⟨⟨t, hs⟩, hlog.trans (List.append_assoc _ _ _)⟩
  · rw [if_neg hbell, if_neg hbell]
    refine ⟨⟨r.2.simTime, ?_⟩, rfl⟩
    rw [← Bool.eq_false_iff.2 hbell]

theorem NvmeRegs.addrInvalid_of_doorbell {r : NvmeRegs} {addr wdata : UInt64}
    (h : (r.write addr wdata).1.doorbell = true) : (r.write addr wdata).1.addrInvalid = false := by
  revert h
  unfold NvmeRegs.write
  split_ifs <;> first | exact fun _ => rfl | exact nofun

theorem NvmeRegs.handleMmioWrite_spec (r : NvmeRegs) (txnId addr : UInt64) (payload : List UInt8) (c : Script) :
    let w := r.write addr (decodeLe payload)
    (r.handleMmioWrite txnId addr payload c).1 = w.2 ∧
      (r.handleMmioWrite txnId addr payload c).2.log = c.log ++ .response (makeHeader .mmioWriteRsp txnId addr 0
          (if w.1.addrInvalid then .errorInvalidAddress else .success) 0 0 kFlagIsResponse) [] ::
        (if w.1.doorbell then dmaTrace w.2.asq w.2.acq c.answers else []) := by
  intro w
  refine ⟨rfl, ?_⟩
  unfold NvmeRegs.handleMmioWrite
  dsimp only
  by_cases hbell : w.1.doorbell = true
  · rw [if_pos hbell, if_pos ⟨by rw [NvmeRegs.addrInvalid_of_doorbell hbell]; rfl, hbell⟩,
      NvmeRegs.runDmaSequence_log]
    exact List.append_assoc _ _ _
  · rw [if_neg hbell, if_neg (fun h => hbell h.2)]
    rfl

/-- **The software model sends in order**, whatever the message. -/
theorem Software.handle_orderly (s : Software) (msg : Message) (answers : List (Option Message)) :
    Orderly answers (s.handle msg ⟨answers, []⟩).2.log := by
  unfold Software.handle
  dsimp only
  split
  · exact (orderly_response _ _).2 orderly_nil
  · split
    · rw [(Software.handleMmioWrite_spec _ msg _).2]
      refine (orderly_response _ _).2 ?_
      split
      · exact orderly_dmaTrace _ _
      · exact orderly_nil
    · split
      · exact (orderly_response _ _).2 orderly_nil
      · exact orderly_nil

/-- **So does the endpoint model.** -/
theorem NvmeRegs.pollAndDispatch_orderly (undef : Undef) (r : NvmeRegs) (msg : Message)
    (answers : List (Option Message)) : Orderly answers (r.pollAndDispatch undef msg ⟨answers, []⟩).2.log := by
  unfold NvmeRegs.pollAndDispatch
  dsimp only
  split
  · rw [(NvmeRegs.handleMmioWrite_spec r _ _ _ _).2]
    refine (orderly_response _ _).2 ?_
    split
    · exact orderly_dmaTrace _ _
    · exact orderly_nil
  · split
    · unfold NvmeRegs.handleMmioRead
      dsimp only
      split
      · exact (orderly_response _ _).2 orderly_nil
      · exact (orderly_response _ _).2 orderly_nil
    · split
      · exact (orderly_response _ _).2 orderly_nil
      · exact orderly_nil

/-! ## mini_ics_alex_tb -/

theorem AlexTb.runDeterministicDma_log (s : AlexTb) (c : Script) :
    (s.runDeterministicDma c).log = c.log ++ [readCommand s.asqAddr, writeCompletion s.acqAddr, interrupt] := by
  unfold AlexTb.runDeterministicDma
  simp only [(miniIcsSendRequest_await _ (.inl rfl) _ _ _).1, (miniIcsSendRequest_await _ (.inr rfl) _ _ _).1]
  simp [miniIcsSendRequest, Script.sendRequestToHost, readCommand, writeCompletion, interrupt]

def AlexTb.writeStatus (fab : Fabric) (undef : Undef) (s : AlexTb) (msg : Message) : StatusCode :=
  if msg.header.transferLen.toNat ∈ lengths then
    if (s.sent fab undef msg).1 then .success else .errorGeneric
  else .errorBadLength

def AlexTb.queues (undef : Undef) (s : AlexTb) (msg : Message) : UInt64 × UInt64 :=
  let length := msg.header.transferLen
  let payload := payloadBytes undef msg.payload length
  (queueAddr s.asqAddr 0x28 msg.header.address length.toNat payload,
    queueAddr s.acqAddr 0x30 msg.header.address length.toNat payload)

theorem AlexTb.writeStatus_success (fab : Fabric) (undef : Undef) (s : AlexTb) (msg : Message) :
    s.writeStatus fab undef msg = .success ↔
      msg.header.transferLen.toNat ∈ lengths ∧ (s.sent fab undef msg).1 = true := by
  unfold AlexTb.writeStatus
  split_ifs with hlen hsent
  · exact iff_of_true rfl ⟨hlen, hsent⟩
  · exact iff_of_false nofun (fun h => hsent h.2)
  · exact iff_of_false nofun (fun h => hlen h.1)

theorem AlexTb.handleMmioWrite_spec (fab : Fabric) (undef : Undef) (s : AlexTb) (msg : Message) (c : Script) :
    let status := s.writeStatus fab undef msg
    let q := s.queues undef msg
    (s.handleMmioWrite fab undef msg c).1 =
        (if msg.header.transferLen.toNat ∈ lengths then
          ⟨(s.sent fab undef msg).2, if status = .success then q.1 else s.asqAddr,
            if status = .success then q.2 else s.acqAddr⟩
        else s) ∧
      (s.handleMmioWrite fab undef msg c).2.log = c.log ++ .response (makeHeader .mmioWriteRsp msg.header.txnId
          msg.header.address 0 status 0 0 kFlagIsResponse) [] ::
        (if status = .success ∧ msg.header.address = 0x1000 then
          [readCommand q.1, writeCompletion q.2, interrupt] else []) := by
  unfold AlexTb.handleMmioWrite AlexTb.writeStatus
  dsimp only
  by_cases hlen : msg.header.transferLen.toNat ∈ lengths
  · by_cases hsent : (s.sent fab undef msg).1 = true
    · by_cases haddr : msg.header.address = 0x1000
      · simp only [hlen, hsent, haddr, and_self, if_true, AlexTb.runDeterministicDma_log]
        exact ⟨by rw [AlexTb.queues, haddr], by rw [AlexTb.queues, haddr]; exact List.append_assoc _ _ _⟩
      · simp only [hlen, hsent, haddr, and_false, if_true, if_false]
        exact ⟨rfl, rfl⟩
    · simp only [hlen, hsent, Bool.false_eq_true, if_true, if_false]
      exact ⟨rfl, rfl⟩
  · simp only [hlen, if_false, true_and]
    rfl

/-- The message makes `mini_ics_alex_tb` run its DMA. -/
def AlexTb.rung (msg : Message) : Prop :=
  msg.header.isType .mmioWriteReq = true ∧ msg.header.address = 0x1000 ∧
    (msg.header.transferLen = 1 ∨ msg.header.transferLen = 2 ∨ msg.header.transferLen = 4)

theorem AlexTb.sent_doorbell (fab : Fabric) (undef : Undef) (s : AlexTb) {msg : Message}
    (haddr : msg.header.address = 0x1000) (hlen : msg.header.transferLen.toNat ∈ lengths) :
    (s.sent fab undef msg).1 = true ↔ msg.header.transferLen.toNat ≠ 8 := by
  have hn := mem_lengths.1 hlen
  have hbell : ∀ (r : Slave) (n : Nat) (v : BitVec 32),
      (r.memWrite fab (makeTlp true (0x1000 : UInt64).toBitVec n v)).bresp = 0 := by
    intro r n v
    rw [memWrite_makeTlp, show reached (0x1000 : UInt64).toBitVec.toNat = some .doorbell from rfl]
    rfl
  unfold AlexTb.sent
  dsimp only
  rw [haddr]
  by_cases h8 : msg.header.transferLen.toNat = 8
  · rw [h8, writeChunks_eight]
    dsimp only
    rw [if_pos (hbell _ _ _), memWrite_makeTlp,
      show reached ((0x1000 : UInt64).toBitVec + 4).toNat = none from rfl]
    exact ⟨nofun, fun h => absurd rfl h⟩
  · rw [writeChunks_short fab _ _ _ (by omega)]
    dsimp only
    rw [hbell]
    exact ⟨fun _ => h8, fun _ => rfl⟩

theorem AlexTb.rung_iff (fab : Fabric) (undef : Undef) (s : AlexTb) {msg : Message}
    (hw : msg.header.isType .mmioWriteReq = true) :
    s.writeStatus fab undef msg = .success ∧ msg.header.address = 0x1000 ↔ AlexTb.rung msg := by
  have hlens : msg.header.transferLen = 1 ∨ msg.header.transferLen = 2 ∨ msg.header.transferLen = 4 ↔
      msg.header.transferLen.toNat ∈ lengths ∧ msg.header.transferLen.toNat ≠ 8 := by
    simp only [lengths, List.mem_cons, List.not_mem_nil, or_false, ← UInt32.toNat_inj]
    change _ = 1 ∨ _ = 2 ∨ _ = 4 ↔ _
    omega
  rw [AlexTb.writeStatus_success]
  constructor
  · rintro ⟨⟨hlen, hsent⟩, haddr⟩
    exact ⟨hw, haddr, hlens.2 ⟨hlen, (AlexTb.sent_doorbell fab undef s haddr hlen).1 hsent⟩⟩
  · rintro ⟨-, haddr, hlen⟩
    obtain ⟨hlen, h8⟩ := hlens.1 hlen
    exact ⟨⟨hlen, (AlexTb.sent_doorbell fab undef s haddr hlen).2 h8⟩, haddr⟩

/-- **`mini_ics_alex_tb` does not look at the answers.** -/
theorem AlexTb.pollOne_orderly_iff (fab : Fabric) (undef : Undef) (s : AlexTb) (msg : Message)
    (answers : List (Option Message)) :
    Orderly answers (s.pollOne fab undef msg ⟨answers, []⟩).2.log ↔
      ¬ AlexTb.rung msg ∨ (acked answers 0 = true ∧ acked answers 1 = true) := by
  by_cases hw : msg.header.isType .mmioWriteReq = true
  · have hr : msg.header.isType .mmioReadReq = false := Header.isType_of_ne hw (by decide)
    simp only [AlexTb.pollOne, hw, hr, Bool.false_eq_true, if_false, if_true]
    obtain ⟨-, hlog⟩ := AlexTb.handleMmioWrite_spec fab undef s msg ⟨answers, []⟩
    rw [hlog, List.nil_append, orderly_response]
    have hiff := AlexTb.rung_iff fab undef s hw
    by_cases hrung : AlexTb.rung msg
    · rw [if_pos (hiff.2 hrung), orderly_readCommand, orderly_blind]
      exact ⟨.inr, fun h => h.resolve_left (not_not_intro hrung)⟩
    · rw [if_neg (fun h => hrung (hiff.1 h))]
      exact iff_of_true orderly_nil (.inl hrung)
  · have hquiet : Orderly answers (s.pollOne fab undef msg ⟨answers, []⟩).2.log := by
      simp only [AlexTb.pollOne, hw, Bool.false_eq_true, if_false, AlexTb.handleMmioRead]
      split
      · split
        · split
          · exact (orderly_response _ _).2 orderly_nil
          · exact (orderly_response _ _).2 orderly_nil
        · exact (orderly_response _ _).2 orderly_nil
      · split
        · exact (orderly_response _ _).2 orderly_nil
        · exact orderly_nil
    exact iff_of_true hquiet (.inl (fun h => hw h.1))

/-! ## The Verilator main loop -/

variable {δ : Type}

/-- The length of an access: what the request asks for, or else what it carries. -/
def MainLoop.length (msg : Message) : UInt32 :=
  if msg.header.transferLen ≠ 0 then msg.header.transferLen else UInt32.ofNat msg.payload.length

def MainLoop.rung (fab : Fabric) (s : MainLoop δ) (msg : Message) : Prop :=
  msg.header.isType .mmioWriteReq = true ∧ msg.header.address = 0x1000 ∧
    (s.harness.doorbellSeen = true ∨ fab.lenPort (MainLoop.length msg) ∈ lengths)

theorem mmio_doorbell (fab : Fabric) (s : Harness) (length : UInt32) (data : UInt64) :
    (s.mmio fab true 0x1000 length data).2.doorbellSeen = true ↔
      s.doorbellSeen = true ∨ fab.lenPort length ∈ lengths := by
  have hbell : ∀ (r : Slave) (n : Nat) (v : BitVec 32),
      (r.memWrite fab (makeTlp true (0x1000 : UInt64).toBitVec n v)).pulse = true := by
    intro r n v
    rw [memWrite_makeTlp, show reached (0x1000 : UInt64).toBitVec.toNat = some .doorbell from rfl]
    rfl
  by_cases hlen : fab.lenPort length ∈ lengths
  · have hn := mem_lengths.1 hlen
    by_cases h8 : fab.lenPort length = 8
    · rw [mmio_eight fab s _ _ true h8, if_pos rfl]
      dsimp only
      rw [hbell]
      simp [hlen]
    · rw [mmio_short fab s _ _ true rfl (by omega), if_pos rfl]
      dsimp only
      rw [hbell]
      simp [hlen]
  · rw [mmio_refused fab s _ _ true hlen]
    simp [hlen]

theorem sq0Doorbell_log (fab : Fabric) (eng : Engine δ) (v : Shadow) (address : UInt64) (s : Sim (δ × Script)) :
    (sq0Doorbell (Alex.env fab eng.host) v address s).host.2.log = s.host.2.log ++
      (if address = 0x1000 ∧ s.harness.doorbellSeen = true then readCommand v.asq ::
        (if (s.host.2.answers.getD 0 none).isSome then [writeCompletion v.acq, interrupt] else []) else []) := by
  unfold sq0Doorbell
  by_cases hseen : address = 0x1000 ∧ (Alex.env fab eng.host).doorbellSeen s = true
  · rw [if_pos hseen, if_pos (show address = 0x1000 ∧ s.harness.doorbellSeen = true from hseen)]
    dsimp only [Alex.env, Engine.host]
    rw [sendRequestToHost_true]
    cases s.host.2.answers.getD 0 none with
    | none   => rfl
    | some _ =>
      dsimp only
      rw [sendRequestToHost_true]
      simp [Script.sendRequestToHost, readCommand, writeCompletion, interrupt, mockCompletion]
  · rw [if_neg hseen, if_neg (show ¬ (address = 0x1000 ∧ s.harness.doorbellSeen = true) from hseen), List.append_nil]

theorem access_status (fab : Fabric) (eng : Engine δ) (v : Shadow) (write : Bool) (address : UInt64) (length : UInt32)
    (data : UInt64) (s : Sim (δ × Script)) :
    (access (Alex.env fab eng.host) v write address length data s).1.2 =
      if write = false ∧ address = 0x1058 then 0
      else (s.harness.mmio fab write address length data).1.elim 5 Prod.snd := by
  unfold access
  split
  · rfl
  · dsimp only [Alex.env]
    cases (s.harness.mmio fab write address length data).1 with
    | none   => rfl
    | some _ => rfl

/-- A write to any register but the DMA tail: the assignments, the access, the response to it, and what the SQ0 doorbell
asks for. -/
theorem MainLoop.handleWrite_spec (fab : Fabric) (eng : Engine δ) (s : MainLoop δ) {msg : Message}
    (hw : msg.header.isType .mmioWriteReq = true) (haddr : msg.header.address ≠ 0x1054) (c : Script) :
    let v := s.shadow.assign msg.header.address (decodeLe msg.payload)
    let a := s.harness.mmio fab true msg.header.address (MainLoop.length msg) (decodeLe msg.payload)
    (s.handle fab eng msg c).1.shadow = v ∧ (s.handle fab eng msg c).1.harness.slave = a.2.slave ∧
      (s.handle fab eng msg c).2.log = c.log ++
        .response (makeHeader .mmioWriteRsp msg.header.txnId msg.header.address 0
          (if a.1.elim 5 Prod.snd = 0 then .success else .errorGeneric) (eng.simTime s.engine) 0 kFlagIsResponse) [] ::
        (if msg.header.address = 0x1000 ∧ a.2.doorbellSeen = true then
          readCommand v.asq :: (if (c.answers.getD 0 none).isSome then [writeCompletion v.acq, interrupt] else [])
        else []) := by
  have hr : msg.header.isType .resetReq = false := Header.isType_of_ne hw (by decide)
  have htail : ∀ (v : Shadow) (data : UInt64) (x : Sim (δ × Script)),
      v.tailDoorbell (Alex.env fab eng.host) msg.header.address data x = (v, [], x) := by
    intro v data x
    rw [Shadow.tailDoorbell, if_neg (fun h => haddr h.1)]
  simp only [MainLoop.handle, Verilator.handle, hr, hw, Bool.false_eq_true, if_false, if_true, handleWrite, htail,
    sq0Doorbell_log, sq0Doorbell_slave, access_status, false_and, Bool.true_eq_false]
  exact ⟨trivial, rfl, List.append_assoc _ _ _⟩

/-- **The main loop goes on whatever the status of the answer**, but not without an answer to the read. -/
theorem MainLoop.handle_orderly_iff (fab : Fabric) (eng : Engine δ) (s : MainLoop δ) {msg : Message}
    (haddr : msg.header.address ≠ 0x1054) (answers : List (Option Message)) :
    Orderly answers (s.handle fab eng msg ⟨answers, []⟩).2.log ↔
      ¬ s.rung fab msg ∨ answers.getD 0 none = none ∨ (acked answers 0 = true ∧ acked answers 1 = true) := by
  by_cases hw : msg.header.isType .mmioWriteReq = true
  · obtain ⟨-, -, hlog⟩ := s.handleWrite_spec fab eng hw haddr ⟨answers, []⟩
    have hiff : msg.header.address = 0x1000 ∧ (s.harness.mmio fab true msg.header.address (MainLoop.length msg)
          (decodeLe msg.payload)).2.doorbellSeen = true ↔ s.rung fab msg := by
      constructor
      · rintro ⟨hbell, hseen⟩
        rw [hbell, mmio_doorbell] at hseen
        exact ⟨hw, hbell, hseen⟩
      · rintro ⟨-, hbell, hseen⟩
        rw [hbell, mmio_doorbell]
        exact ⟨rfl, hseen⟩
    rw [hlog, List.nil_append, orderly_response]
    by_cases hrung : s.rung fab msg
    · rw [if_pos (hiff.2 hrung), orderly_readCommand]
      cases hans : answers.getD 0 none with
      | none   => exact iff_of_true orderly_nil (.inr (.inl rfl))
      | some m =>
        refine (orderly_blind _).trans ⟨fun h => .inr (.inr h), ?_⟩
        rintro (h | h | h)
        · exact absurd hrung h
        · cases h
        · exact h
    · rw [if_neg (fun h => hrung (hiff.1 h))]
      exact iff_of_true orderly_nil (.inl hrung)
  · have hquiet : Orderly answers (s.handle fab eng msg ⟨answers, []⟩).2.log := by
      simp only [MainLoop.handle, Verilator.handle, hw, Bool.false_eq_true, if_false]
      split
      · exact (orderly_response _ _).2 orderly_nil
      · split
        · unfold handleRead access
          dsimp only
          split
          · exact (orderly_response _ _).2 orderly_nil
          · exact (orderly_response _ _).2 orderly_nil
        · exact orderly_nil
    exact iff_of_true hquiet (.inl (fun h => hw h.1))

/-! ## Every backend -/

/-- **An interrupt only for an acknowledged completion.**  Whatever the state and the message, the software model and
the endpoint model keep to it for every pattern of answers; `mini_ics_alex_tb` and, at any register but the DMA tail,
the Verilator main loop exactly when the doorbell is not rung or the host acknowledges both requests, the main loop
also when it does not answer the first at all. -/
theorem interrupt_follows_completion_iff (fab : Fabric) (undef : Undef) (eng : Engine δ) (msg : Message)
    (answers : List (Option Message)) :
    (∀ s : Software, Orderly answers (s.handle msg ⟨answers, []⟩).2.log) ∧
    (∀ r : NvmeRegs, Orderly answers (r.pollAndDispatch undef msg ⟨answers, []⟩).2.log) ∧
    (∀ s : AlexTb, Orderly answers (s.pollOne fab undef msg ⟨answers, []⟩).2.log ↔
      ¬ AlexTb.rung msg ∨ (acked answers 0 = true ∧ acked answers 1 = true)) ∧
    (msg.header.address ≠ 0x1054 → ∀ s : MainLoop δ, Orderly answers (s.handle fab eng msg ⟨answers, []⟩).2.log ↔
      ¬ s.rung fab msg ∨ answers.getD 0 none = none ∨ (acked answers 0 = true ∧ acked answers 1 = true)) :=
  ⟨fun s => s.handle_orderly msg answers, fun r => r.pollAndDispatch_orderly undef msg answers,
    fun s => s.pollOne_orderly_iff fab undef msg answers, fun haddr s => s.handle_orderly_iff fab eng haddr answers⟩

def Engine.idle : Engine Unit where
  dmaRead _ _ _ _ s := (false, s)
  dmaWrite _ _ _ _ s := (false, s)
  reset s := s
  simTime _ := 0

def answer (type : MessageType) (status : StatusCode) : Option Message :=
  some ⟨makeHeader type 1 0 0 status 0 0 kFlagIsResponse, []⟩

/-- The main loop, with a host that acknowledges both requests. -/
theorem interrupt_follows_completion_iff_acked :
    let answers := [answer .dmaReadRsp .success, answer .dmaWriteRsp .success]
    (MainLoop.handle Fabric.plain Engine.idle ⟨{}, {}, ()⟩ (barWrite 0x1000 [1, 0, 0, 0])
        ⟨answers, []⟩).2.log.length = 4 ∧
      Orderly answers
        (MainLoop.handle Fabric.plain Engine.idle ⟨{}, {}, ()⟩ (barWrite 0x1000 [1, 0, 0, 0]) ⟨answers, []⟩).2.log := by
  intro answers
  refine ⟨by decide, ?_⟩
  exact ((interrupt_follows_completion_iff Fabric.plain (fun _ _ => 0) Engine.idle _ answers).2.2.2 (by decide) _).2
    (.inr (.inr ⟨by decide, by decide⟩))

/-- The host refuses the completion write, and the interrupt follows all the same. -/
theorem interrupt_without_completion :
    ∃ (msg : Message) (answers : List (Option Message)),
      ¬ Orderly answers (AlexTb.pollOne Fabric.plain (fun _ _ => 0) {} msg ⟨answers, []⟩).2.log ∧
      ¬ Orderly answers (MainLoop.handle Fabric.plain Engine.idle ⟨{}, {}, ()⟩ msg ⟨answers, []⟩).2.log := by
  refine ⟨barWrite 0x1000 [1, 0, 0, 0], [answer .dmaReadRsp .success, answer .dmaWriteRsp .errorGeneric], ?_, ?_⟩
  · intro h
    exact absurd (h.interrupt interrupt (by decide) rfl).2 (by decide)
  · intro h
    exact absurd (h.interrupt interrupt (by decide) rfl).2 (by decide)

end Endpoint
end Vip
