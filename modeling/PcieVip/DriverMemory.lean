import PcieVip.DriverBatch
import PcieVip.LibRun
/-!
# DriverMemory — the driver's buffers while the simulator works

The steps of any number of `pcie_vip_run_config` calls, of the simulator's main loop and of the host that serves the
simulator's DMA requests, in any order.  Allocation comes before `run_lock` is taken and the release after it is given
back, so calls overlap there.  A register write travels to the simulator in order or is lost on the way, and the driver
does not wait for its effect.  A request that the simulator no longer waits for stays with the host and is served later.

Of `dma_alloc_coherent` it is assumed that it grants whole pages that share no address with what is still granted; of
the DMA engine, which is not part of this repository, that it asks for dwords of the transfer it was given.

`Touch` records an access of the host's memory on the simulator's behalf, and whether all of it lay in buffers not yet
freed.  The steps of an iteration decide as `RunGenericDma` in one piece does (`outcome_afterFetch`).
-/
namespace Vip
namespace Driver

open Bytes Mem Verilator

/-! ## Allocations -/

inductive Kind where
  | desc | cpl | src | dst
  deriving DecidableEq, Repr

def Addrs.at (a : Addrs) : Kind → UInt64
  | .desc => a.desc
  | .cpl  => a.cpl
  | .src  => a.src
  | .dst  => a.dst

def Kind.size (length : UInt32) : Kind → Nat
  | .desc => 64
  | .cpl  => 32
  | .src  => length.toNat
  | .dst  => length.toNat

def pageSize : Nat := 4096

def pageAlign (n : Nat) : Nat := (n + (pageSize - 1)) / pageSize * pageSize

/-- A grant of `dma_alloc_coherent` that has not been freed. -/
structure Region where
  owner : Nat
  kind  : Kind
  base  : UInt64
  size  : Nat
  deriving DecidableEq, Repr

def region (owner : Nat) (a : Addrs) (length : UInt32) (k : Kind) : Region :=
  ⟨owner, k, a.at k, pageAlign (k.size length)⟩

/-- The ranges share no address, nor does one wrap. -/
def disjoint (a : UInt64) (n : Nat) (r : Region) : Prop :=
  a.toNat + n ≤ r.base.toNat ∨ r.base.toNat + r.size ≤ a.toNat

instance (a : UInt64) (n : Nat) (r : Region) : Decidable (disjoint a n r) :=
  inferInstanceAs (Decidable (_ ∨ _))

def grantable (live : List Region) (r : Region) : Prop :=
  r.base.toNat % pageSize = 0 ∧ r.base.toNat + r.size ≤ 2 ^ 64 ∧ ∀ r' ∈ live, disjoint r.base r.size r'

instance (live : List Region) (r : Region) : Decidable (grantable live r) :=
  inferInstanceAs (Decidable (_ ∧ _ ∧ ∀ r' ∈ live, _))

/-- The grants of a call one after another; a failed one grants nothing. -/
def grants (live : List Region) : List Region → Prop
  | []      => True
  | r :: rs => grantable live r ∧ grants (r :: live) rs

instance decidableGrants : ∀ (live rs : List Region), Decidable (grants live rs)
  | _, []         => isTrue trivial
  | live, r :: rs =>
    haveI := decidableGrants (r :: live) rs
    inferInstanceAs (Decidable (grantable live r ∧ grants (r :: live) rs))

/-! ## The driver -/

inductive Pc where
  | allocating
  | allocated
  | programming (k : Nat)
  | filling (iter : Nat)
  | polling (iter tries : Nat)
  | ringing (iter : Nat)
  | waiting (iter : Nat)
  | verifying (iter : Nat)
  | unlocking (ret : Int)
  | freeing (ret : Int) (todo : List Kind)
  | returned (ret : Int)
  deriving DecidableEq, Repr

structure Task where
  cfg   : RunConfig
  addrs : Addrs := ⟨0, 0, 0, 0⟩
  pc    : Pc
  -- history: no write of `program` was lost
  whole : Bool := true
  deriving DecidableEq, Repr

def Task.length (c : Task) : UInt32 := c.cfg.usedLength

/-- A register write on its way, and the call that made it. -/
structure RegWrite where
  addr  : UInt64
  value : UInt32
  owner : Nat
  deriving DecidableEq, Repr

/-! ## The simulator -/

/-- A request to the host, and the call whose doorbell it serves. -/
inductive ReqKind where
  | dmaRead | dmaWrite | msiX
  deriving DecidableEq, Repr

structure HostReq where
  kind    : ReqKind
  addr    : UInt64
  len     : Nat
  payload : List UInt8
  owner   : Nat
  awaited : Bool
  deriving DecidableEq, Repr

/-- The arguments of a call of `RunGenericDma`. -/
structure Batch where
  descBase : UInt64
  cplBase  : UInt64
  count    : UInt32
  tail     : UInt32
  owner    : Nat
  deriving DecidableEq, Repr

structure Fields where
  hostAddr : UInt64
  ramAddr  : UInt32
  length   : UInt16
  opcode   : UInt8
  flags    : UInt8
  tag      : UInt32
  deriving DecidableEq, Repr

def Fields.ofBytes (desc : List UInt8) : Fields :=
  ⟨readLe64 desc 0, readLe32 desc 8, readLe16 desc 12, desc.getD 14 0, desc.getD 15 0, readLe32 desc 16⟩

def Fields.accepted (d : Fields) : Prop :=
  d.length ≠ 0 ∧ d.length ≤ kMaxTransfer ∧ d.ramAddr.toNat + d.length.toNat ≤ kRamBytes ∧ (d.opcode = 0 ∨ d.opcode = 1)

instance (d : Fields) : Decidable d.accepted := inferInstanceAs (Decidable (_ ∧ _ ∧ _ ∧ _))

/-- Where `RunGenericDma` stands in an iteration: before the fetch, inside `DmaRead` or `DmaWrite`, before the
completion. -/
inductive Point where
  | fetch
  | move (d : Fields)
  | complete (o : Verilator.Outcome)
  deriving DecidableEq, Repr

inductive Phase where
  | idle
  | ready (b : Batch) (index : UInt32) (p : Point)
  | waiting (b : Batch) (index : UInt32) (p : Point) (r : HostReq)
  deriving DecidableEq, Repr

/-! ## The whole -/

structure Touch where
  addr   : UInt64
  len    : Nat
  inside : Bool
  deriving DecidableEq, Repr

structure World where
  mem      : BitVec 64 → UInt8
  live     : List Region := []
  calls    : List Task := []
  runLock  : Option Nat := none
  irqDone  : Nat := 0
  writes   : List RegWrite := []
  shadow   : Shadow := {}
  phase    : Phase := .idle
  requests : List HostReq := []
  -- history
  touches  : List Touch := []

def World.setPc (s : World) (i : Nat) (c : Task) (pc : Pc) : World := { s with calls := s.calls.set i { c with pc } }

def World.post (s : World) (i : Nat) (w : UInt64 × UInt32) (lost : Bool) : World :=
  if lost then s else { s with writes := s.writes ++ [⟨w.1, w.2, i⟩] }

/-- Every address of the range lies in a live allocation. -/
def covered (live : List Region) (a : UInt64) (n : Nat) : Bool :=
  (List.range n).all (fun j => live.any (fun r => decide ((a + UInt64.ofNat j - r.base).toNat < r.size)))

/-! ## The driver's steps -/

inductive DriverEvent where
  /-- The four results of `dma_alloc_coherent`. -/
  | alloc (desc cpl src dst : Option UInt64)
  /-- A step that leaves no choice. -/
  | go
  /-- A register write, which may be lost. -/
  | write (lost : Bool)
  /-- A read of the status register, which the simulator answers or not. -/
  | poll (answered : Bool)
  | wake
  | timeout
  deriving DecidableEq, Repr

def granted (i : Nat) (length : UInt32) (got : List (Kind × Option UInt64)) : List Region :=
  got.filterMap (fun g => g.2.map (fun base => ⟨i, g.1, base, pageAlign (g.1.size length)⟩))

def World.allocate (s : World) (i : Nat) (c : Task) (desc cpl src dst : Option UInt64) : Option World :=
  let new := granted i c.length [(.desc, desc), (.cpl, cpl), (.src, src), (.dst, dst)]
  if grants s.live new then
    let s := { s with live := new.reverse ++ s.live }
    match desc, cpl, src, dst with
    | some desc, some cpl, some src, some dst =>
      some { s with calls := s.calls.set i { c with addrs := ⟨desc, cpl, src, dst⟩, pc := .allocated } }
    | _, _, _, _ =>
      let addrs : Addrs := ⟨desc.getD 0, cpl.getD 0, src.getD 0, dst.getD 0⟩
      some { s with calls := s.calls.set i { c with addrs, pc := .freeing (-eNoMem) (new.reverse.map (·.kind)) } }
  else none

/-- What `ioread32(DMA_STATUS)` returns: the main loop answers once it has dealt with what came before. -/
def World.statusRead (s : World) (answered : Bool) : Option UInt32 :=
  if answered then if s.writes = [] ∧ s.phase = .idle then some s.shadow.dmaStatus else none else some 0xffffffff

def driverStep (s : World) (i : Nat) (c : Task) (e : DriverEvent) : Option World :=
  match c.pc, e with
  | .allocating, .alloc desc cpl src dst => s.allocate i c desc cpl src dst
  | .allocated, .go =>
    if s.runLock = none then
      let mem := write s.mem c.addrs.desc.toBitVec (descBytes c.addrs c.length)
      some ({ s with runLock := some i, mem }.setPc i c (.programming 0))
    else none
  | .programming k, .write lost =>
    match (programWrites c.addrs)[k]? with
    | some w => some ((s.post i w lost).setPc i { c with whole := c.whole && !lost } (.programming (k + 1)))
    | none   => none
  | .programming k, .go => if k = (programWrites c.addrs).length then some (s.setPc i c (.filling 0)) else none
  | .filling iter, .go =>
    if iter < c.cfg.usedIterations.toNat then
      some ({ s with mem := fillMem c.addrs c.length s.mem }.setPc i c (.polling iter 0))
    else some (s.setPc i c (.unlocking 0))
  | .polling iter tries, .poll answered =>
    if tries < 50 then
      (s.statusRead answered).map (fun v => s.setPc i c (if v = 0 then .ringing iter else .polling iter (tries + 1)))
    else none
  | .polling _ tries, .go => if tries = 50 then some (s.setPc i c (.unlocking (-eTimedOut))) else none
  | .ringing iter, .write lost =>
    let tail := UInt32.ofNat (2 * (iter + 1))
    some (({ s with irqDone := 0 }.post i (vipDmaDescTail, tail) lost).setPc i c (.waiting iter))
  | .waiting iter, .wake =>
    if s.irqDone = 0 then none else some ({ s with irqDone := s.irqDone - 1 }.setPc i c (.verifying iter))
  | .waiting _, .timeout => some (s.setPc i c (.unlocking (-eTimedOut)))
  | .verifying iter, .go =>
    some (s.setPc i c (if verify c.addrs c.length s.mem then .filling (iter + 1) else .unlocking (-eIo)))
  | .unlocking ret, .go => some ({ s with runLock := none }.setPc i c (.freeing ret [.dst, .src, .cpl, .desc]))
  | .freeing ret (k :: todo), .go =>
    some ({ s with live := s.live.erase (region i c.addrs c.length k) }.setPc i c (.freeing ret todo))
  | .freeing ret [], .go => some (s.setPc i c (.returned ret))
  | _, _ => none

/-- A call: the configuration is checked before anything is allocated. -/
def World.call (s : World) (cfg : RunConfig) : World :=
  let length := cfg.usedLength
  let iterations := cfg.usedIterations
  let bad := length = 0 ∨ length > 4096 ∨ iterations = 0 ∨ iterations > 1024
  { s with calls := s.calls ++ [{ cfg, pc := if bad then .returned (-eInval) else .allocating }] }

/-! ## The simulator's steps -/

def World.finish (s : World) (b : Batch) (ok : Bool) : World :=
  { s with phase := .idle
           shadow := { s.shadow with descHead := if ok then b.tail else s.shadow.descHead
                                     dmaStatus := if ok then 0 else 1 } }

/-- The main loop takes the next register write, and enters `RunGenericDma` when it is the doorbell. -/
def World.takeWrite (s : World) : Option World :=
  match s.phase, s.writes with
  | .idle, w :: ws =>
    let v := s.shadow.assign w.addr w.value.toUInt64
    let s := { s with writes := ws, shadow := v }
    if w.addr = vipDmaDescTail ∧ v.dmaControl &&& 1 ≠ 0 ∧ v.descCount ≠ 0 then
      let b : Batch := ⟨v.descBase, v.cplBase, v.descCount, w.value, w.owner⟩
      if b.count = 0 ∨ b.count > 1024 ∨ b.tail < v.descHead ∨ b.tail - v.descHead > b.count then
        some (s.finish b false)
      else if v.descHead < b.tail then some { s with phase := .ready b v.descHead .fetch }
      else some (s.finish b true)
    else some s
  | _, _ => none

/-- `dma_rd_req_addr` and `dma_wr_req_addr` for a request of the DMA engine at `a`: bits 63 to 34 of the TLP header,
which are the address in a header of three dwords and the upper half of it in one of four. -/
def reqAddr (a : UInt64) : UInt64 :=
  if a >>> 32 = 0 then (a >>> 2) <<< 2 else (a >>> 34) <<< 2

def dwords (length : UInt16) : Nat := (length.toNat + 3) / 4

def fetchReq (b : Batch) (index : UInt32) : HostReq :=
  ⟨.dmaRead, b.descBase + (index % b.count).toUInt64 * kDescBytes.toUInt64, kDescBytes.toNat, [], b.owner, true⟩

def chunkReq (b : Batch) (d : Fields) (off n : Nat) (data : Nat → UInt8) : HostReq :=
  let a := reqAddr (d.hostAddr + UInt64.ofNat (4 * off))
  if d.opcode = 0 then ⟨.dmaRead, a, 4 * n, [], b.owner, true⟩
  else ⟨.dmaWrite, a, 4 * n, (List.range (4 * n)).map data, b.owner, true⟩

def completeReq (b : Batch) (index : UInt32) (o : Verilator.Outcome) : HostReq :=
  ⟨.dmaWrite, b.cplBase + (index % b.count).toUInt64 * kCplBytes.toUInt64, kCplBytes.toNat, completion o index,
    b.owner, true⟩

def afterFetch (rsp : Option (UInt32 × List UInt8)) : Point :=
  match rsp with
  | none                   => .complete {}
  | some (status, payload) =>
    if status = 0 ∧ payload.length = kDescBytes.toNat then
      let d := Fields.ofBytes payload
      if d.accepted then .move d else .complete ⟨6, 0, d.tag, d.flags, false⟩
    else .complete { status }

/-- After the answer to a request of `DmaRead` or `DmaWrite`: a failed write ends the transfer. -/
def afterChunk (d : Fields) (rsp : Option (UInt32 × List UInt8)) : Point :=
  if d.opcode = 0 ∨ rsp.map (·.1) = some 0 then .move d else .complete ⟨1, 0, d.tag, d.flags, false⟩

def World.afterCompletion (s : World) (b : Batch) (index : UInt32) (o : Verilator.Outcome)
    (rsp : Option (UInt32 × List UInt8)) : World :=
  if rsp.map (·.1) ≠ some 0 then s.finish b false
  else
    let irq : HostReq := ⟨.msiX, 0, 0, [], b.owner, false⟩
    let s := if o.flags &&& 1 ≠ 0 then { s with requests := s.requests ++ [irq] } else s
    if o.status ≠ 0 then s.finish b false
    else if index + 1 < b.tail then { s with phase := .ready b (index + 1) .fetch }
    else s.finish b true

def World.resume (s : World) (b : Batch) (index : UInt32) (p : Point) (rsp : Option (UInt32 × List UInt8)) : World :=
  match p with
  | .fetch      => { s with phase := .ready b index (afterFetch rsp) }
  | .move d     => { s with phase := .ready b index (afterChunk d rsp) }
  | .complete o => s.afterCompletion b index o rsp

inductive SimEvent where
  | takeWrite
  /-- `SendRequestToHost` for the fetch or the completion; `sent` is whether the message went out. -/
  | request (sent : Bool)
  /-- The same for `n` dwords of the transfer, from the dword `off` on. -/
  | chunk (off n : Nat) (data : Nat → UInt8) (sent : Bool)
  /-- `DmaRead` or `DmaWrite` returns. -/
  | moved (ok : Bool)
  /-- The wait for the answer times out. -/
  | giveUp

def World.issue (s : World) (b : Batch) (index : UInt32) (p : Point) (r : HostReq) (sent : Bool) : World :=
  if sent then { s with requests := s.requests ++ [r], phase := .waiting b index p r } else s.resume b index p none

def simStep (s : World) (e : SimEvent) : Option World :=
  match s.phase, e with
  | _, .takeWrite => s.takeWrite
  | .ready b index .fetch, .request sent => some (s.issue b index .fetch (fetchReq b index) sent)
  | .ready b index (.complete o), .request sent =>
    some (s.issue b index (.complete o) (completeReq b index o) sent)
  | .ready b index (.move d), .chunk off n data sent =>
    if 0 < n ∧ off + n ≤ dwords d.length then some (s.issue b index (.move d) (chunkReq b d off n data) sent) else none
  | .ready b index (.move d), .moved ok =>
    let o : Verilator.Outcome :=
      if ok then ⟨0, d.length.toUInt32, d.tag, d.flags, true⟩ else ⟨1, 0, d.tag, d.flags, false⟩
    some { s with phase := .ready b index (.complete o) }
  | .waiting b index p _, .giveUp =>
    some ({ s with requests := s.requests.map (fun r : HostReq => { r with awaited := false }) }.resume b index p none)
  | _, _ => none

/-! ## The host -/

/-- `pci_dma_read` or `pci_dma_write` for a request; `ok` is whether it succeeds. -/
def World.access (s : World) (r : HostReq) (ok : Bool) : World :=
  { s with mem := if r.kind = .dmaWrite ∧ ok = true then write s.mem r.addr.toBitVec r.payload else s.mem
           touches := s.touches ++ [⟨r.addr, r.len, covered s.live r.addr r.len⟩] }

def World.answer (s : World) (r : HostReq) (ok : Bool) : UInt32 × List UInt8 :=
  (if ok then 0 else 6, if r.kind = .dmaRead ∧ ok = true then read s.mem r.addr.toBitVec r.len else [])

def World.deliver (s : World) (r : HostReq) (rsp : UInt32 × List UInt8) : World :=
  match r.awaited, s.phase with
  | true, .waiting b index p _ => s.resume b index p (some rsp)
  | _, _                       => s

def World.serve (s : World) (ok : Bool) : Option World :=
  match s.requests with
  | []      => none
  | r :: rs =>
    let s := { s with requests := rs }
    if r.kind = .msiX then some { s with irqDone := s.irqDone + 1 }
    else some ((s.access r ok).deliver r (s.answer r ok))

/-- The rest of the guest writes to memory that is not granted to the driver. -/
def World.other (s : World) (a : UInt64) (bs : List UInt8) : Option World :=
  if a.toNat + bs.length ≤ 2 ^ 64 ∧ ∀ r ∈ s.live, disjoint a bs.length r then
    some { s with mem := write s.mem a.toBitVec bs }
  else none

inductive Event where
  | call (cfg : RunConfig)
  | driver (i : Nat) (e : DriverEvent)
  | sim (e : SimEvent)
  | serve (ok : Bool)
  | other (a : UInt64) (bs : List UInt8)

def worldStep (s : World) (e : Event) : Option World :=
  match e with
  | .call cfg   => some (s.call cfg)
  | .driver i e =>
    match s.calls[i]? with
    | none   => none
    | some c => driverStep s i c e
  | .sim e      => simStep s e
  | .serve ok   => s.serve ok
  | .other a bs => s.other a bs

/-- What an iteration makes of the point after its fetch, when `DmaRead` or `DmaWrite` returns `moves d`. -/
def Point.outcome (moves : Fields → Bool) : Point → Verilator.Outcome
  | .fetch      => {}
  | .move d     => if moves d then ⟨0, d.length.toUInt32, d.tag, d.flags, true⟩ else ⟨1, 0, d.tag, d.flags, false⟩
  | .complete o => o

/-- **The steps after a fetch decide as `RunGenericDma` does**, whatever the host answers and the transfer returns. -/
theorem outcome_afterFetch {σ : Type} (env : Env σ) (rsp : Option Ics.Message) (s : σ) :
    (afterFetch (rsp.map (fun m => (m.header.status, m.payload)))).outcome (fun d =>
      (if d.opcode = 0 then env.dmaRead d.hostAddr d.ramAddr.toUInt16 d.length d.tag.toUInt8 s
        else env.dmaWrite d.hostAddr d.ramAddr.toUInt16 d.length d.tag.toUInt8 s).1) = (execute env rsp s).1 := by
  cases rsp with
  | none => rfl
  | some m =>
    have hstatus : m.header.isStatus .success = true ↔ m.header.status = 0 := by
      simp [Ics.Header.isStatus, Ics.StatusCode.code]
    simp only [Option.map_some, afterFetch, execute, hstatus]
    by_cases hok : m.header.status = 0 ∧ m.payload.length = kDescBytes.toNat
    · rw [if_pos hok, if_pos hok]
      by_cases hacc : (Fields.ofBytes m.payload).accepted
      · rw [if_pos hacc]
        unfold Fields.accepted Fields.ofBytes at hacc
        simp only [transfer, Point.outcome, Fields.ofBytes, if_pos hacc]
        by_cases hop : m.payload.getD 14 0 = 0
        · simp only [hop, if_true]
          split
          · rfl
          · rfl
        · simp only [hop, if_false]
          split
          · rfl
          · rfl
      · rw [if_neg hacc]
        unfold Fields.accepted Fields.ofBytes at hacc
        simp only [transfer, Point.outcome, Fields.ofBytes, if_neg hacc]
    · rw [if_neg hok, if_neg hok]
      rfl

/-! ## What is still to come -/

def Phase.owner? : Phase → Option Nat
  | .idle            => none
  | .ready b _ _     => some b.owner
  | .waiting b _ _ _ => some b.owner

/-- A doorbell of the call is on its way or being worked on, or a request it led to is still with the host. -/
def World.outstanding (s : World) (i : Nat) : Bool :=
  s.writes.any (fun w => w.owner = i ∧ w.addr = vipDmaDescTail) || s.phase.owner? == some i ||
    s.requests.any (fun r => r.owner = i ∧ r.kind ≠ .msiX)

def Pc.frees : Pc → Bool
  | .freeing _ (_ :: _) => true
  | _                   => false

def Pc.rings : Pc → Bool
  | .ringing _ => true
  | _          => false

/-- The data buffers lie below 4 GiB, a doorbell reaches the simulator only after the whole of `program` did, and a
buffer is freed only when nothing of its call is outstanding. -/
def Settled (s : World) : Event → Prop
  | .driver _ (.alloc _ _ src dst) => (∀ a ∈ src, a.toNat < 2 ^ 32) ∧ ∀ a ∈ dst, a.toNat < 2 ^ 32
  | .driver i (.write lost)        => ∀ c ∈ s.calls[i]?, c.pc.rings = true → lost = false → c.whole = true
  | .driver i .go                  => ∀ c ∈ s.calls[i]?, c.pc.frees = true → s.outstanding i = false
  | _                              => True

instance decidableSettled (s : World) : ∀ e : Event, Decidable (Settled s e)
  -- by the address there is, not by a search through all of them
  | .driver _ (.alloc _ _ src dst) =>
    @instDecidableAnd _ _ (Option.decidableForallMem src) (Option.decidableForallMem dst)
  | .driver i (.write _)           => Option.decidableForallMem s.calls[i]?
  | .driver i .go                  => Option.decidableForallMem s.calls[i]?
  | .driver _ (.poll _)            => .isTrue trivial
  | .driver _ .wake                => .isTrue trivial
  | .driver _ .timeout             => .isTrue trivial
  | .call _                        => .isTrue trivial
  | .sim _                         => .isTrue trivial
  | .serve _                       => .isTrue trivial
  | .other _ _                     => .isTrue trivial

end Driver
end Vip
