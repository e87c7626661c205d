import PcieVip.LibMem
import PcieVip.QemuDevice
import PcieVip.Verilator
/-!
# Driver — the guest driver against one simulator (`guest/pcie-vip/driver/pcie_vip.c`)

`pcie_vip_run_config` call after call, over the register file of the simulator's main loop.  Here every host request
and every transfer succeeds: a DMA request moves bytes of the guest's memory, `DmaRead` and `DmaWrite` move bytes
between that memory and the RTL's RAM, an interrupt completes `irq_done`.  The rest of the RTL is arbitrary.  A
register access is over when the main loop has dealt with it, so a doorbell's batch has run before the driver looks at
`irq_done`; a wait that finds nothing then runs into its timeout.
-/
namespace Vip
namespace Driver

open Bytes Ics Mem Verilator

/-! ## Registers, structures and errors -/

def vipDmaDescBaseLo : UInt64 := 0x1040
def vipDmaDescBaseHi : UInt64 := 0x1044
def vipDmaCplBaseLo : UInt64 := 0x1048
def vipDmaCplBaseHi : UInt64 := 0x104c
def vipDmaDescCount : UInt64 := 0x1050
def vipDmaDescTail : UInt64 := 0x1054
def vipDmaStatus : UInt64 := 0x1058
def vipDmaControl : UInt64 := 0x105c

def eIo : Int := 5
def eNoMem : Int := 12
def eInval : Int := 22
def eTimedOut : Int := 110

structure RunConfig where
  length     : UInt32
  iterations : UInt32
  completed  : UInt32 := 0
  lastStatus : UInt32 := 0
  elapsedNs  : UInt64 := 0
  deriving DecidableEq, Repr

def RunConfig.usedLength (cfg : RunConfig) : UInt32 := if cfg.length ≠ 0 then cfg.length else 64

def RunConfig.usedIterations (cfg : RunConfig) : UInt32 := if cfg.iterations ≠ 0 then cfg.iterations else 1

structure DmaDesc where
  hostAddr  : UInt64
  ramAddr   : UInt32 := 0
  length    : UInt16
  opcode    : UInt8 := 0
  flags     : UInt8 := 0
  tag       : UInt32
  reserved  : UInt32 := 0
  reserved2 : UInt64 := 0
  deriving DecidableEq, Repr

def DmaDesc.fields (d : DmaDesc) : List (Nat × Nat) :=
  [(8, d.hostAddr.toNat), (4, d.ramAddr.toNat), (2, d.length.toNat), (1, d.opcode.toNat), (1, d.flags.toNat),
   (4, d.tag.toNat), (4, d.reserved.toNat), (8, d.reserved2.toNat)]

def DmaDesc.bytes (d : DmaDesc) : List UInt8 := pack d.fields

structure DmaCpl where
  tag      : UInt32
  status   : UInt16
  reserved : UInt16
  bytes    : UInt32
  sequence : UInt32
  deriving DecidableEq, Repr

def DmaCpl.load (mem : BitVec 64 → UInt8) (a : BitVec 64) : DmaCpl :=
  { tag      := UInt32.ofNat (leNat (read mem a 4))
    status   := UInt16.ofNat (leNat (read mem (a + BitVec.ofNat 64 4) 2))
    reserved := UInt16.ofNat (leNat (read mem (a + BitVec.ofNat 64 6) 2))
    bytes    := UInt32.ofNat (leNat (read mem (a + BitVec.ofNat 64 8) 4))
    sequence := UInt32.ofNat (leNat (read mem (a + BitVec.ofNat 64 12) 4)) }

structure Addrs where
  desc : UInt64
  cpl  : UInt64
  src  : UInt64
  dst  : UInt64
  deriving DecidableEq, Repr

/-- What `dma_alloc_coherent` promises: the allocations of a call share no address. -/
structure Buffers (length : Nat) extends Addrs where
  desc_cpl : Apart desc.toBitVec 64 cpl.toBitVec 32
  desc_src : Apart desc.toBitVec 64 src.toBitVec length
  desc_dst : Apart desc.toBitVec 64 dst.toBitVec length
  cpl_src  : Apart cpl.toBitVec 32 src.toBitVec length
  cpl_dst  : Apart cpl.toBitVec 32 dst.toBitVec length
  src_dst  : Apart src.toBitVec length dst.toBitVec length

def readDesc (a : Addrs) (length : UInt32) : DmaDesc := { hostAddr := a.src, length := length.toUInt16, tag := 0x100 }

def writeDesc (a : Addrs) (length : UInt32) : DmaDesc :=
  { hostAddr := a.dst, length := length.toUInt16, opcode := 1, flags := 1, tag := 0x101 }

def descBytes (a : Addrs) (length : UInt32) : List UInt8 := (readDesc a length).bytes ++ (writeDesc a length).bytes

/-- `src[i] = 0xa0 + (i & 0x3f)`. -/
def pattern (n : Nat) : List UInt8 := (List.range n).map (fun i => UInt8.ofNat (0xa0 + (i &&& 0x3f)))

/-- `memset(cpl)`, `memset(dst)` and the pattern in `src`. -/
def fillMem (a : Addrs) (length : UInt32) (mem : BitVec 64 → UInt8) : BitVec 64 → UInt8 :=
  let mem := write mem a.cpl.toBitVec (List.replicate 32 0)
  let mem := write mem a.dst.toBitVec (List.replicate length.toNat 0)
  write mem a.src.toBitVec (pattern length.toNat)

def cplOk (c : DmaCpl) (tag length : UInt32) : Bool := c.tag == tag && c.status == 0 && c.bytes == length

/-- The comparison of `dst` and the two completions. -/
def verify (a : Addrs) (length : UInt32) (mem : BitVec 64 → UInt8) : Bool :=
  read mem a.dst.toBitVec length.toNat == pattern length.toNat &&
    cplOk (DmaCpl.load mem a.cpl.toBitVec) 0x100 length &&
    cplOk (DmaCpl.load mem (a.cpl.toBitVec + BitVec.ofNat 64 16)) 0x101 length

/-! ## The guest's memory and the RTL behind the main loop -/

structure Rtl (ρ : Type) where
  mmio          : Bool → UInt64 → UInt32 → UInt64 → ρ → Option (UInt64 × UInt32) × ρ
  reset         : ρ → ρ
  doorbellSeen  : ρ → Bool
  clearDoorbell : ρ → ρ
  simTime       : ρ → UInt64

structure Host (ρ : Type) where
  mem      : BitVec 64 → UInt8
  ram      : BitVec 16 → UInt8
  irqDone  : Nat
  response : Option Message
  rtl      : ρ
  -- history
  msix     : Nat

variable {ρ : Type}

def dmaRsp (type : MessageType) (address : UInt64) (payload : List UInt8) (transferLen : UInt32) : Message :=
  ⟨makeHeader type 0 address 0 .success 0 (UInt32.ofNat payload.length) kFlagIsResponse transferLen, payload⟩

def hostEnv (rtl : Rtl ρ) : Env (Host ρ) where
  sendRequestToHost type address payload transferLen _ s :=
    match type with
    | .dmaReadReq  => (some (dmaRsp .dmaReadRsp address (read s.mem address.toBitVec transferLen.toNat) transferLen), s)
    | .dmaWriteReq => (some (dmaRsp .dmaWriteRsp address [] transferLen),
        { s with mem := write s.mem address.toBitVec payload })
    | .msiX        => (none, { s with irqDone := s.irqDone + 1, msix := s.msix + 1 })
    | _            => (none, s)
  sendResponse h p s := { s with response := some ⟨h, p⟩ }
  dmaRead address ramAddr length _ s :=
    (true, { s with ram := write s.ram ramAddr.toBitVec (read s.mem address.toBitVec length.toNat) })
  dmaWrite address ramAddr length _ s :=
    (true, { s with mem := write s.mem address.toBitVec (read s.ram ramAddr.toBitVec length.toNat) })
  mmio write address length data s :=
    let r := rtl.mmio write address length data s.rtl
    (r.1, { s with rtl := r.2 })
  reset s := { s with rtl := rtl.reset s.rtl }
  doorbellSeen s := rtl.doorbellSeen s.rtl
  clearDoorbell s := { s with rtl := rtl.clearDoorbell s.rtl }
  simTime s := rtl.simTime s.rtl

/-! ## Register accesses -/

/-- What a write to the tail register did. -/
structure TailWrite where
  executed : List Executed
  msix     : Nat
  deriving DecidableEq, Repr

structure System (ρ : Type) where
  shadow     : Shadow
  host       : Host ρ
  -- history
  tailWrites : List TailWrite := []

/-- The request as it reaches the main loop, which echoes its identifier and does not read its time stamp. -/
def requestMessage (r : Qemu.RpcRequest) : Message := ⟨(r.header 0 0).toIcs, r.payload⟩

def iowrite32 (rtl : Rtl ρ) (value : UInt32) (addr : UInt64) (s : System ρ) : System ρ :=
  let h := handle (hostEnv rtl) s.shadow (requestMessage (.write addr value.toUInt64 4)) s.host
  { shadow := h.shadow
    host := h.env
    tailWrites :=
      if addr = vipDmaDescTail then s.tailWrites ++ [⟨h.executed, h.env.msix - s.host.msix⟩] else s.tailWrites }

/-- What `pcie_vip_rpc` makes of the response. -/
def rpcResult (r : Qemu.RpcRequest) (m : Option Message) : Option Qemu.MicsMessage :=
  (m.map (fun m => ⟨Qemu.ofIcs m.header, m.payload⟩)).filter
    (fun m => m.h.type == r.expected.code && m.h.status == Qemu.micsStatusSuccess)

def ioread32 (rtl : Rtl ρ) (addr : UInt64) (s : System ρ) : UInt32 × System ρ :=
  let r : Qemu.RpcRequest := .read addr 4
  let h := handle (hostEnv rtl) s.shadow (requestMessage r) s.host
  ((Qemu.mmioReadValue 4 (rpcResult r h.env.response)).toUInt32, { s with shadow := h.shadow, host := h.env })

/-! ## pcie_vip_run_config -/

def System.store (s : System ρ) (a : UInt64) (bs : List UInt8) : System ρ :=
  { s with host := { s.host with mem := write s.host.mem a.toBitVec bs } }

def System.setIrqDone (s : System ρ) (n : Nat) : System ρ := { s with host := { s.host with irqDone := n } }

def lower32Bits (a : UInt64) : UInt32 := a.toUInt32

def upper32Bits (a : UInt64) : UInt32 := (a >>> 32).toUInt32

/-- The register writes before the loop. -/
def programWrites (a : Addrs) : List (UInt64 × UInt32) :=
  [(vipDmaDescBaseLo, lower32Bits a.desc), (vipDmaDescBaseHi, upper32Bits a.desc), (vipDmaCplBaseLo, lower32Bits a.cpl),
   (vipDmaCplBaseHi, upper32Bits a.cpl), (vipDmaDescCount, 2), (vipDmaControl, 1)]

def program (rtl : Rtl ρ) (a : Addrs) (s : System ρ) : System ρ :=
  (programWrites a).foldl (fun s w => iowrite32 rtl w.2 w.1 s) s

def fill (a : Addrs) (length : UInt32) (s : System ρ) : System ρ :=
  { s with host := { s.host with mem := fillMem a length s.host.mem } }

/-- At most `n` reads of the status register: whether one was zero. -/
def pollStatus (rtl : Rtl ρ) : Nat → System ρ → Bool × System ρ
  | 0, s     => (false, s)
  | n + 1, s =>
    let r := ioread32 rtl vipDmaStatus s
    if r.1 = 0 then (true, r.2) else pollStatus rtl n r.2

/-- One iteration, with the tail already moved: the error, or zero. -/
def iteration (rtl : Rtl ρ) (a : Addrs) (length tail : UInt32) (s : System ρ) : Int × System ρ :=
  let p := pollStatus rtl 50 (fill a length s)
  if p.1 then
    let s := iowrite32 rtl tail vipDmaDescTail (p.2.setIrqDone 0)
    if s.host.irqDone = 0 then (-eTimedOut, s)
    else
      let s := s.setIrqDone (s.host.irqDone - 1)
      (if verify a length s.host.mem then 0 else -eIo, s)
  else (-eTimedOut, p.2)

/-- The loop over `iter`, for `n` more iterations: the error, `cfg->completed` and the system. -/
def iterate (rtl : Rtl ρ) (a : Addrs) (length : UInt32) : Nat → UInt32 → UInt32 → System ρ → Int × UInt32 × System ρ
  | 0, iter, _, s        => (0, iter, s)
  | n + 1, iter, tail, s =>
    let r := iteration rtl a length (tail + 2) s
    if r.1 = 0 then iterate rtl a length n (iter + 1) (tail + 2) r.2 else (r.1, iter, r.2)

structure Returned (ρ : Type) where
  ret    : Int
  cfg    : RunConfig
  system : System ρ

/-- `addrs` are the allocations, unless one failed; `clock` are the two readings of `ktime_get_ns`. -/
def runConfig (rtl : Rtl ρ) (cfg : RunConfig) (addrs : Option Addrs) (clock : UInt64 × UInt64) (s : System ρ) :
    Returned ρ :=
  let length := cfg.usedLength
  let iterations := cfg.usedIterations
  if length = 0 ∨ length > 4096 ∨ iterations = 0 ∨ iterations > 1024 then ⟨-eInval, cfg, s⟩
  else
    match addrs with
    | none   => ⟨-eNoMem, cfg, s⟩
    | some a =>
      let s := s.store a.desc (descBytes a length)
      let r := iterate rtl a length iterations.toNat 0 0 (program rtl a s)
      let lastStatus := if r.1 ≠ 0 then UInt32.ofNat (-r.1).toNat else 0
      ⟨r.1, { cfg with completed := r.2.1, lastStatus, elapsedNs := clock.2 - clock.1 }, r.2.2⟩

/-! ## Calls one after another -/

/-- A call with an admitted configuration whose allocations succeed. -/
structure Call where
  cfg       : RunConfig
  lengthOk  : cfg.length ≤ 4096
  iterOk    : cfg.iterations ≤ 1024
  buffers   : Buffers cfg.usedLength.toNat
  clock     : UInt64 × UInt64 := (0, 0)

structure Outcome where
  ret        : Int
  cfg        : RunConfig
  tailWrites : List TailWrite
  deriving DecidableEq, Repr

def runCalls (rtl : Rtl ρ) : System ρ → List Call → List Outcome
  | _, []      => []
  | s, c :: cs =>
    let r := runConfig rtl c.cfg (some c.buffers.toAddrs) c.clock { s with tailWrites := [] }
    ⟨r.ret, r.cfg, r.system.tailWrites⟩ :: runCalls rtl r.system cs

/-- The doorbell of iteration `i` executed the descriptors of that iteration and raised one interrupt. -/
def TailWrite.Exact (t : TailWrite) : Prop :=
  t.executed.map (fun e => (e.index % 2, e.transferred, e.status)) = [(0, true, 0), (1, true, 0)] ∧ t.msix = 1

/-- The call returned zero, after one doorbell for each iteration and each of them exact. -/
def Outcome.Agrees (o : Outcome) : Prop :=
  o.ret = 0 ∧ o.tailWrites.length = o.cfg.usedIterations.toNat ∧ ∀ t ∈ o.tailWrites, t.Exact

end Driver
end Vip
