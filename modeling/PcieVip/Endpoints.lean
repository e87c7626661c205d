import PcieVip.AlexTop
/-!
# Endpoints — the backends (`SoftwareEndpointModel` in `server.cpp`, `mini-ics/rtl`, `rtl/alex/mini_ics_alex_tb.sv`)

Each backend takes a polled message and answers it; a doorbell makes it send requests to the host.  What the host
answers to them is a script, and what the backend sends is logged.  The SystemVerilog backends go through the DPI layer,
which reports `transfer_len` and stages the payload; a byte asked for beyond the payload is not assigned by the C side,
and what the simulator then has in its place is a parameter.  The end of each polling loop at SHUTDOWN is left out.

The main loop of the Verilator harness is the fourth backend, with the DMA engine as a parameter.
-/
namespace Vip
namespace Endpoint

open Alex Ics Verilator Word

/-! ## The host -/

inductive Out where
  | response (h : Header) (payload : List UInt8)
  | request (type : MessageType) (address : UInt64) (payload : List UInt8) (transferLen : UInt32)
  deriving DecidableEq, Repr

/-- The host's answers to come, and what has been sent. -/
structure Script where
  answers : List (Option Message)
  log     : List Out := []
  deriving DecidableEq, Repr

def Script.sendRequestToHost (c : Script) (type : MessageType) (address : UInt64) (payload : List UInt8)
    (transferLen : UInt32) (expectResponse : Bool) : Option Message × Script :=
  let log := c.log ++ [.request type address payload transferLen]
  if expectResponse then (c.answers.headD none, ⟨c.answers.tail, log⟩) else (none, ⟨c.answers, log⟩)

def Script.sendResponse (c : Script) (h : Header) (payload : List UInt8) : Script :=
  { c with log := c.log ++ [.response h payload] }

def mockCompletion : List UInt8 := (List.range 16).map (fun i => UInt8.ofNat (0xc0 + i))

/-! ## SoftwareEndpointModel -/

def kCapabilities : UInt64 := 1
def kAdminSqReg : UInt64 := 0x0028
def kAdminCqReg : UInt64 := 0x0030
def kAqaReg : UInt64 := 0x0024
def kCcReg : UInt64 := 0x0014
def kCstsReg : UInt64 := 0x001c
def kCapReg : UInt64 := 0x0000
def kSq0Doorbell : UInt64 := 0x1000
def kMmioSpaceSize : UInt64 := 64 * 1024

structure Software where
  simTime      : UInt64 := 100
  cc           : UInt32 := 0
  csts         : UInt32 := 0
  asq          : UInt64 := 0
  acq          : UInt64 := 0
  aqa          : UInt32 := 0
  doorbellRung : Bool := false
  deriving DecidableEq, Repr

/-- The decoders have the bodies of the codec's accessors. -/
def decodeU32 (b : List UInt8) : UInt32 := getU32 b
def decodeU64 (b : List UInt8) : UInt64 := getU64 b

/-- The sum wraps. -/
def addrValid (addr : UInt64) (len : UInt32) : Bool := addr + len.toUInt64 ≤ kMmioSpaceSize

namespace Software

def tick (s : Software) (ns : UInt64) : Software := { s with simTime := s.simTime + ns }

def runDmaSequence (s : Software) (c : Script) : Software × Script :=
  let s := s.tick 60
  let read := c.sendRequestToHost .dmaReadReq s.asq [] 64 true
  if !isSuccess read.1 then (s, read.2)
  else
    let s := s.tick 45
    let write := read.2.sendRequestToHost .dmaWriteReq s.acq mockCompletion 16 true
    if !isSuccess write.1 then (s, write.2)
    else (s.tick 30, (write.2.sendRequestToHost .msiX 0 [] 0 false).2)

/-- The decision of `HandleMmioWrite`. -/
def store (s : Software) (addr : UInt64) (payload : List UInt8) : StatusCode × Software :=
  let len := UInt32.ofNat payload.length
  if !addrValid addr len then (.errorInvalidAddress, s)
  else if addr = kCcReg ∧ len = 4 then
    let cc := decodeU32 payload
    (.success, { s with cc, csts := if cc &&& 1 ≠ 0 then s.csts ||| 1 else s.csts &&& ~~~1 })
  else if addr = kAdminSqReg ∧ len = 8 then (.success, { s with asq := decodeU64 payload })
  else if addr = kAdminCqReg ∧ len = 8 then (.success, { s with acq := decodeU64 payload })
  else if addr = kAqaReg ∧ len = 4 then (.success, { s with aqa := decodeU32 payload })
  else if addr = kSq0Doorbell ∧ len = 4 then (.success, { s with doorbellRung := true })
  else if len ≠ 4 ∧ len ≠ 8 then (.errorBadLength, s)
  else (.errorInvalidAddress, s)

def handleMmioWrite (s : Software) (msg : Message) (c : Script) : Software × Script :=
  let r := s.store msg.header.address msg.payload
  let rsp := makeHeader .mmioWriteRsp msg.header.txnId msg.header.address 0 r.1 r.2.simTime 0 kFlagIsResponse
  let c := c.sendResponse rsp []
  if r.2.doorbellRung then { r.2 with doorbellRung := false }.runDmaSequence c else (r.2, c)

def register? (s : Software) (addr : UInt64) : Option UInt32 :=
  if addr = kCstsReg then some s.csts
  else if addr = kCcReg then some s.cc
  else if addr = kAqaReg then some s.aqa
  else if addr = kCapReg then some kCapabilities.toUInt32
  else none

/-- The decision of `HandleMmioRead`: the status and the payload. -/
def load (s : Software) (msg : Message) : StatusCode × List UInt8 :=
  let addr := msg.header.address
  let len := if msg.header.transferLen = 0 then popcountll msg.header.byteEnable else msg.header.transferLen
  let bad := len ≠ 1 ∧ len ≠ 2 ∧ len ≠ 4 ∧ len ≠ 8
  let used := if bad then 0 else len
  let status : StatusCode :=
    if !addrValid addr used then .errorInvalidAddress
    else if (s.register? addr).isNone then .errorInvalidAddress
    else if bad then .errorBadLength
    else .success
  (status, if status = .success then encodeLe ((s.register? addr).getD 0).toUInt64 used else [])

def handleMmioRead (s : Software) (msg : Message) (c : Script) : Software × Script :=
  let r := s.load msg
  let rsp := makeHeader .mmioReadRsp msg.header.txnId msg.header.address 0 r.1 s.simTime (UInt32.ofNat r.2.length)
    kFlagIsResponse
  (s, c.sendResponse rsp r.2)

def handleReset (s : Software) (msg : Message) (c : Script) : Software × Script :=
  let s := { s with cc := 0, csts := 0, asq := 0, acq := 0, aqa := 0 }
  (s, c.sendResponse (makeHeader .resetRsp msg.header.txnId 0 0 .success s.simTime 0 kFlagIsResponse) [])

/-- A message polled by `Run`. -/
def handle (s : Software) (msg : Message) (c : Script) : Software × Script :=
  let s := s.tick 15
  if msg.header.isType .resetReq then s.handleReset msg c
  else if msg.header.isType .mmioWriteReq then s.handleMmioWrite msg c
  else if msg.header.isType .mmioReadReq then s.handleMmioRead msg c
  else (s, c)

end Software

/-! ## The DPI layer -/

/-- What an output argument holds that the C side did not assign: for each staged payload and index. -/
abbrev Undef := List UInt8 → Nat → UInt8

/-- `mini_ics_get_payload_byte` for the indices below `length`. -/
def payloadBytes (undef : Undef) (staged : List UInt8) (length : UInt32) : List UInt8 :=
  (List.range length.toNat).map (fun i => if i < staged.length then staged.getD i 0 else undef staged i)

def miniIcsSendResponse (c : Script) (type : MessageType) (txnId address : UInt64) (status : StatusCode)
    (payload : List UInt8) : Script :=
  c.sendResponse
    (makeHeader type txnId address 0 status 0 (UInt32.ofNat payload.length) kFlagIsResponse) payload

def miniIcsSendRequest (c : Script) (type : MessageType) (address : UInt64) (payload : List UInt8) (length : UInt32) :
    Int × Script :=
  let data := if type ≠ .dmaReadReq then payload else []
  let expectResponse := type = .dmaReadReq ∨ type = .dmaWriteReq
  let r := c.sendRequestToHost type address data length expectResponse
  if !expectResponse then (0, r.2)
  else
    match r.1 with
    | none     => (-3, r.2)
    | some rsp => (if rsp.header.isStatus .success then 0 else -2, r.2)

/-! ## nvme_register_model -/

def mmioWindowSize : UInt64 := 0x2000

structure NvmeRegs where
  cc            : UInt32 := 0
  csts          : UInt32 := 0
  aqa           : UInt32 := 0
  asq           : UInt64 := 0
  acq           : UInt64 := 0
  doorbellValue : UInt32 := 0
  deriving DecidableEq, Repr

/-- `rsp_addr_invalid`, `rsp_rdata` and `doorbell_pulse`. -/
structure RegRsp where
  addrInvalid : Bool := false
  rdata       : UInt64 := 0
  doorbell    : Bool := false
  deriving DecidableEq, Repr

def NvmeRegs.write (r : NvmeRegs) (addr wdata : UInt64) : RegRsp × NvmeRegs :=
  if addr ≥ mmioWindowSize then ({ addrInvalid := true }, r)
  else if addr = kCcReg then
    ({}, { r with cc := wdata.toUInt32, csts := if wdata &&& 1 ≠ 0 then r.csts ||| 1 else r.csts &&& ~~~1 })
  else if addr = kAqaReg then ({}, { r with aqa := wdata.toUInt32 })
  else if addr = kAdminSqReg then ({}, { r with asq := wdata })
  else if addr = kAdminCqReg then ({}, { r with acq := wdata })
  else if addr = kSq0Doorbell then ({ doorbell := true }, { r with doorbellValue := wdata.toUInt32 })
  else ({ addrInvalid := true }, r)

def NvmeRegs.read (r : NvmeRegs) (addr : UInt64) : RegRsp :=
  if addr ≥ mmioWindowSize then { addrInvalid := true }
  else if addr = kCapReg then { rdata := kCapabilities }
  else if addr = kCcReg then { rdata := r.cc.toUInt64 }
  else if addr = kCstsReg then { rdata := r.csts.toUInt64 }
  else if addr = kAqaReg then { rdata := r.aqa.toUInt64 }
  else if addr = kAdminSqReg then { rdata := r.asq }
  else if addr = kAdminCqReg then { rdata := r.acq }
  else { addrInvalid := true }

/-! ## mini_ics_endpoint_model -/

namespace NvmeRegs

def runDmaSequence (r : NvmeRegs) (c : Script) : Script :=
  let read := miniIcsSendRequest c .dmaReadReq r.asq [] 64
  if read.1 ≠ 0 then read.2
  else
    let write := miniIcsSendRequest read.2 .dmaWriteReq r.acq mockCompletion 16
    if write.1 ≠ 0 then write.2 else (miniIcsSendRequest write.2 .msiX 0 [] 0).2

def handleMmioWrite (r : NvmeRegs) (txnId addr : UInt64) (payload : List UInt8) (c : Script) : NvmeRegs × Script :=
  let w := r.write addr (decodeLe payload)
  let status : StatusCode := if w.1.addrInvalid then .errorInvalidAddress else .success
  let c := miniIcsSendResponse c .mmioWriteRsp txnId addr status []
  (w.2, if status = .success ∧ w.1.doorbell then w.2.runDmaSequence c else c)

/-- The bits of `reg_rsp_rdata` beyond the 64th read as zero. -/
def handleMmioRead (r : NvmeRegs) (txnId addr : UInt64) (length : UInt32) (c : Script) : NvmeRegs × Script :=
  let rsp := r.read addr
  if rsp.addrInvalid then (r, miniIcsSendResponse c .mmioReadRsp txnId addr .errorInvalidAddress [])
  else
    (r, miniIcsSendResponse c .mmioReadRsp txnId addr .success
      ((List.range length.toNat).map (fun i => if i < 8 then (rsp.rdata >>> (8 * UInt64.ofNat i)).toUInt8 else 0)))

/-- `poll_and_dispatch`; `handle_reset` does nothing but answer. -/
def pollAndDispatch (undef : Undef) (r : NvmeRegs) (msg : Message) (c : Script) : NvmeRegs × Script :=
  let txnId := msg.header.txnId
  let addr := msg.header.address
  let length := msg.header.transferLen
  if msg.header.isType .mmioWriteReq then r.handleMmioWrite txnId addr (payloadBytes undef msg.payload length) c
  else if msg.header.isType .mmioReadReq then r.handleMmioRead txnId addr length c
  else if msg.header.isType .resetReq then (r, miniIcsSendResponse c .resetRsp txnId 0 .success [])
  else (r, c)

end NvmeRegs

/-! ## mini_ics_alex_tb -/

structure AlexTb where
  slave   : Slave := {}
  asqAddr : UInt64 := 0
  acqAddr : UInt64 := 0
  deriving DecidableEq, Repr

/-- The loop of `handle_mmio_write` from `offset` on, for at most `n` TLPs: whether all succeeded, and the registers.
It ends at the first error. -/
def writeChunks (fab : Fabric) (address : UInt64) (payload : List UInt8) (length : Nat) :
    Nat → Nat → Slave → Bool × Slave
  | 0, _, r          => (true, r)
  | n + 1, offset, r =>
    if offset < length then
      let chunk := chunkLen length offset
      let value := lo (decodeLe ((payload.drop offset).take chunk)).toBitVec
      let w := r.memWrite fab (makeTlp true (address.toBitVec + BitVec.ofNat 64 offset) chunk value)
      if w.bresp ≠ 0 then (false, w.slave)
      else writeChunks fab address payload length n (offset + chunk) w.slave
    else (true, r)

/-- The loop of `handle_mmio_read`: the bytes read, unless a TLP fails. -/
def readChunks (fab : Fabric) (address : UInt64) (r : Slave) (length : Nat) : Nat → Nat → Option (List UInt8)
  | 0, _          => some []
  | n + 1, offset =>
    if offset < length then
      let chunk := chunkLen length offset
      let t := r.memRead fab (makeTlp false (address.toBitVec + BitVec.ofNat 64 offset) chunk 0)
      if t.2 ≠ 0 then none
      else
        (readChunks fab address r length n (offset + chunk)).map
          (fun rest => (List.range chunk).map (fun k => UInt8.ofBitVec (byteAt t.1 k)) ++ rest)
    else some []

namespace AlexTb

/-- A queue address after a write of `length` bytes at `address`; the register is at `base`. -/
def queueAddr (old : UInt64) (base address : UInt64) (length : Nat) (payload : List UInt8) : UInt64 :=
  let data := (decodeLe payload).toBitVec
  if address = base ∧ length = 8 then UInt64.ofBitVec data
  else if address = base ∧ length = 4 then UInt64.ofBitVec (join (hi old.toBitVec) (lo data))
  else if address = base + 4 ∧ length = 4 then UInt64.ofBitVec (join (lo data) (lo old.toBitVec))
  else old

def runDeterministicDma (s : AlexTb) (c : Script) : Script :=
  let c := (miniIcsSendRequest c .dmaReadReq s.asqAddr [] 64).2
  let c := (miniIcsSendRequest c .dmaWriteReq s.acqAddr mockCompletion 16).2
  (miniIcsSendRequest c .msiX 0 [] 0).2

def sent (fab : Fabric) (undef : Undef) (s : AlexTb) (msg : Message) : Bool × Slave :=
  let length := msg.header.transferLen
  writeChunks fab msg.header.address (payloadBytes undef msg.payload length) length.toNat length.toNat 0 s.slave

def handleMmioWrite (fab : Fabric) (undef : Undef) (s : AlexTb) (msg : Message) (c : Script) : AlexTb × Script :=
  let address := msg.header.address
  let length := msg.header.transferLen
  let answer (status : StatusCode) : Script := miniIcsSendResponse c .mmioWriteRsp msg.header.txnId address status []
  if length.toNat ∈ lengths then
    let payload := payloadBytes undef msg.payload length
    let w := s.sent fab undef msg
    if w.1 then
      let s : AlexTb :=
        ⟨w.2, queueAddr s.asqAddr 0x28 address length.toNat payload,
          queueAddr s.acqAddr 0x30 address length.toNat payload⟩
      (s, if address = 0x1000 then s.runDeterministicDma (answer .success) else answer .success)
    else ({ s with slave := w.2 }, answer .errorGeneric)
  else (s, answer .errorBadLength)

def handleMmioRead (fab : Fabric) (s : AlexTb) (msg : Message) (c : Script) : AlexTb × Script :=
  let address := msg.header.address
  let length := msg.header.transferLen
  let answer (status : StatusCode) (payload : List UInt8) : Script :=
    miniIcsSendResponse c .mmioReadRsp msg.header.txnId address status payload
  if length.toNat ∈ lengths then
    match readChunks fab address s.slave length.toNat length.toNat 0 with
    | some payload => (s, answer .success payload)
    | none         => (s, answer .errorGeneric [])
  else (s, answer .errorBadLength [])

def pollOne (fab : Fabric) (undef : Undef) (s : AlexTb) (msg : Message) (c : Script) : AlexTb × Script :=
  if msg.header.isType .mmioReadReq then s.handleMmioRead fab msg c
  else if msg.header.isType .mmioWriteReq then s.handleMmioWrite fab undef msg c
  else if msg.header.isType .resetReq then (s, miniIcsSendResponse c .resetRsp msg.header.txnId 0 .success [])
  else (s, c)

end AlexTb

/-! ## The TLPs of a write -/

theorem writeChunks_short (fab : Fabric) (address : UInt64) (payload : List UInt8) (r : Slave) {n : Nat}
    (hn : n = 1 ∨ n = 2 ∨ n = 4) :
    writeChunks fab address payload n n 0 r =
      let w := r.memWrite fab (makeTlp true address.toBitVec n (lo (decodeLe (payload.take n)).toBitVec))
      (decide (w.bresp = 0), w.slave) := by
  have hs := short_of hn
  obtain ⟨m, hm⟩ := Nat.exists_eq_succ_of_ne_zero hs.pos
  have hdone : ∀ k s, writeChunks fab address payload n k n s = (true, s) := by
    intro k s
    cases k with
    | zero => rfl
    | succ k => rw [writeChunks, if_neg (Nat.lt_irrefl n)]
  have hstep : writeChunks fab address payload n n 0 r = writeChunks fab address payload n (m + 1) 0 r := by rw [hm]
  rw [hstep, writeChunks, if_pos (Nat.pos_of_ne_zero hs.pos)]
  simp only [hs.chunk, Nat.zero_add, List.drop_zero, BitVec.ofNat_eq_ofNat, BitVec.add_zero, hdone]
  generalize r.memWrite fab _ = w
  by_cases hb : w.bresp = 0#2
  · simp [hb]
  · simp [hb]

theorem writeChunks_eight (fab : Fabric) (address : UInt64) (payload : List UInt8) (r : Slave) :
    writeChunks fab address payload 8 8 0 r =
      let w := r.memWrite fab (makeTlp true address.toBitVec 4 (lo (decodeLe (payload.take 4)).toBitVec))
      if w.bresp = 0 then
        let x := w.slave.memWrite fab
          (makeTlp true (address.toBitVec + 4) 4 (lo (decodeLe ((payload.drop 4).take 4)).toBitVec))
        (decide (x.bresp = 0), x.slave)
      else (false, w.slave) := by
  rw [writeChunks, if_pos (by decide)]
  simp only [show chunkLen 8 0 = 4 from rfl, Nat.zero_add, List.drop_zero, BitVec.ofNat_eq_ofNat, BitVec.add_zero]
  generalize r.memWrite fab _ = w
  by_cases hb : w.bresp = 0#2
  · rw [writeChunks, if_pos (show 4 < 8 by decide)]
    simp only [show chunkLen 8 4 = 4 from rfl, hb]
    rw [writeChunks, if_neg (show ¬ 4 + 4 < 8 by decide)]
    generalize w.slave.memWrite fab _ = x
    by_cases hx : x.bresp = 0#2
    · simp [hx]
    · simp [hx]
  · simp [hb]

/-! ## The Verilator main loop -/

/-- `dma_if_pcie` and its RAM, and the simulation time. -/
structure Engine (δ : Type) where
  dmaRead  : UInt64 → UInt16 → UInt16 → UInt8 → δ × Script → Bool × (δ × Script)
  dmaWrite : UInt64 → UInt16 → UInt16 → UInt8 → δ × Script → Bool × (δ × Script)
  reset    : δ → δ
  simTime  : δ → UInt64

variable {δ : Type}

def Engine.host (eng : Engine δ) : HostSide (δ × Script) where
  sendRequestToHost type address payload transferLen expectResponse s :=
    let r := s.2.sendRequestToHost type address payload transferLen expectResponse
    (r.1, (s.1, r.2))
  sendResponse h payload s := (s.1, s.2.sendResponse h payload)
  dmaRead := eng.dmaRead
  dmaWrite := eng.dmaWrite
  reset s := (eng.reset s.1, s.2)
  simTime s := eng.simTime s.1

structure MainLoop (δ : Type) where
  shadow  : Shadow := {}
  harness : Harness := {}
  engine  : δ

def MainLoop.handle (fab : Fabric) (eng : Engine δ) (s : MainLoop δ) (msg : Message) (c : Script) :
    MainLoop δ × Script :=
  let h := Verilator.handle (Alex.env fab eng.host) s.shadow msg ⟨s.harness, (s.engine, c)⟩
  (⟨h.shadow, h.env.harness, h.env.host.1⟩, h.env.host.2)

/-! ## A backend as a machine -/

/-- A backend that takes a message and the host's answers to what it asks for; `view` is what is seen of its outputs. -/
def serve {σ ω : Type} (view : Out → ω) (handle : σ → Message → Script → σ × Script) (s : σ)
    (i : Message × List (Option Message)) : σ × List ω :=
  let r := handle s i.1 ⟨i.2, []⟩
  (r.1, r.2.log.map view)

end Endpoint
end Vip
