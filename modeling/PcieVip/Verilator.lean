import PcieVip.Server
/-!
# Verilator — the simulator harness (`rtl/alex/verilator_qemu_main.cpp`)

`runGenericDma` and the body of the main loop, over an environment that answers for what they call: the Mini ICS
server, the host behind it, and the RTL driven by `Harness`.  The environment is a parameter, so that the same text
serves a host that answers at will and a host that is a memory.  `Executed` records, for each descriptor the loop
worked on, whether its transfer succeeded and the status of its completion.
-/
namespace Vip
namespace Verilator

open Bytes Ics

/-! ## Little-endian helpers -/

def decodeLe (p : List UInt8) : UInt64 :=
  (List.range 8).foldl (fun v i => if i < p.length then v ||| ((p.getD i 0).toUInt64 <<< (8 * UInt64.ofNat i)) else v) 0

def encodeLe (value : UInt64) (length : UInt32) : List UInt8 :=
  (List.range length.toNat).map (fun i => (value >>> (8 * UInt64.ofNat i)).toUInt8)

def readLe16 (p : List UInt8) (off : Nat) : UInt16 :=
  if off + 2 ≤ p.length then (p.getD off 0).toUInt16 ||| ((p.getD (off + 1) 0).toUInt16 <<< 8) else 0

def readLe32 (p : List UInt8) (off : Nat) : UInt32 :=
  (List.range 4).foldl
    (fun v i => if off + i < p.length then v ||| ((p.getD (off + i) 0).toUInt32 <<< (8 * UInt32.ofNat i)) else v) 0

def readLe64 (p : List UInt8) (off : Nat) : UInt64 :=
  (List.range 8).foldl
    (fun v i => if off + i < p.length then v ||| ((p.getD (off + i) 0).toUInt64 <<< (8 * UInt64.ofNat i)) else v) 0

def storeLe (p : List UInt8) (off : Nat) (v : UInt64) (n : Nat) : List UInt8 :=
  overlay p off ((List.range n).map (fun i => (v >>> (8 * UInt64.ofNat i)).toUInt8))

theorem getD_drop (p : List UInt8) (off i : Nat) :
    (p.drop off).getD i 0 = if off + i < p.length then p.getD (off + i) 0 else 0 := by
  split
  · simp [List.getD_eq_getElem?_getD]
  · rename_i h
    simp [List.getD_eq_getElem?_getD, List.getElem?_eq_none (Nat.not_lt.1 h)]

theorem or_byte_guard (p : List UInt8) (off i : Nat) (v : UInt64) :
    (if off + i < p.length then v ||| ((p.getD (off + i) 0).toUInt64 <<< (8 * UInt64.ofNat i)) else v) =
      v ||| (((p.drop off).getD i 0).toUInt64 <<< (8 * UInt64.ofNat i)) := by
  rw [getD_drop]
  split
  · rfl
  · simp

theorem or_byte_guard32 (p : List UInt8) (off i : Nat) (v : UInt32) :
    (if off + i < p.length then v ||| ((p.getD (off + i) 0).toUInt32 <<< (8 * UInt32.ofNat i)) else v) =
      v ||| (((p.drop off).getD i 0).toUInt32 <<< (8 * UInt32.ofNat i)) := by
  rw [getD_drop]
  split
  · rfl
  · simp

theorem readLe64_eq (p : List UInt8) (off : Nat) : (readLe64 p off).toNat = leNat ((p.drop off).take 8) := by
  rw [← getU64_eq]
  simp only [readLe64, or_byte_guard, getU64]

theorem readLe32_eq (p : List UInt8) (off : Nat) : (readLe32 p off).toNat = leNat ((p.drop off).take 4) := by
  rw [← getU32_eq]
  simp only [readLe32, or_byte_guard32, getU32]
  simp [List.range_succ]

theorem readLe16_eq (p : List UInt8) (off : Nat) (h : off + 2 ≤ p.length) :
    (readLe16 p off).toNat = leNat ((p.drop off).take 2) := by
  rw [← getU16_eq]
  simp [readLe16, getU16, h, List.getD_eq_getElem?_getD]

theorem decodeLe_eq (p : List UInt8) : (decodeLe p).toNat = leNat (p.take 8) := by
  have h := readLe64_eq p 0
  simp only [readLe64, Nat.zero_add, List.drop_zero] at h
  exact h

theorem bytes_eq (v : UInt64) {n : Nat} (hn : n ≤ 8) :
    (List.range n).map (fun i => (v >>> (8 * UInt64.ofNat i)).toUInt8) = leBytes n v.toNat := by
  rw [leBytes_eq_map]
  apply List.map_congr_left
  intro i hi
  have hi : i < n := List.mem_range.1 hi
  have hk : (8 * UInt64.ofNat i).toNat = 8 * i := by simp; omega
  have hmod : 8 * i % 64 = 8 * i := Nat.mod_eq_of_lt (by omega)
  apply UInt8.toNat_inj.1
  rw [UInt64.toNat_toUInt8, UInt64.toNat_shiftRight, hk, hmod, Nat.shiftRight_eq_div_pow, UInt8.toNat_ofNat',
    Nat.pow_mul]

/-! ## What the loop calls -/

/-- The server, the host and the RTL, as the loop sees them. -/
structure Env (σ : Type) where
  /-- `SendRequestToHost(type, address, 0, payload, transfer_len, sim_time, expect_response)`. -/
  sendRequestToHost : MessageType → UInt64 → List UInt8 → UInt32 → Bool → σ → Option Message × σ
  sendResponse      : Header → List UInt8 → σ → σ
  /-- `Harness::DmaRead` and `DmaWrite`: host address, RAM address, length, tag. -/
  dmaRead           : UInt64 → UInt16 → UInt16 → UInt8 → σ → Bool × σ
  dmaWrite          : UInt64 → UInt16 → UInt16 → UInt8 → σ → Bool × σ
  /-- `Harness::Mmio`: the result and the status, unless it timed out. -/
  mmio              : Bool → UInt64 → UInt32 → UInt64 → σ → Option (UInt64 × UInt32) × σ
  reset             : σ → σ
  doorbellSeen      : σ → Bool
  clearDoorbell     : σ → σ
  simTime           : σ → UInt64

variable {σ : Type}

/-! ## RunGenericDma -/

def kDescBytes : UInt32 := 32
def kCplBytes : UInt32 := 16
def kRamBytes : Nat := 64 * 1024
def kMaxTransfer : UInt16 := 4096

/-- The local variables of an iteration once the descriptor has been dealt with. -/
structure Outcome where
  status      : UInt32 := 1
  bytes       : UInt32 := 0
  tag         : UInt32 := 0
  flags       : UInt8 := 0
  transferred : Bool := false
  deriving DecidableEq, Repr

/-- The part of the iteration that a 32-byte descriptor decides. -/
def transfer (env : Env σ) (desc : List UInt8) (s : σ) : Outcome × σ :=
  let hostAddr := readLe64 desc 0
  let ramAddr := readLe32 desc 8
  let length := readLe16 desc 12
  let opcode := desc.getD 14 0
  let flags := desc.getD 15 0
  let tag := readLe32 desc 16
  if length ≠ 0 ∧ length ≤ kMaxTransfer ∧ ramAddr.toNat + length.toNat ≤ kRamBytes ∧ (opcode = 0 ∨ opcode = 1) then
    let r :=
      if opcode = 0 then env.dmaRead hostAddr ramAddr.toUInt16 length tag.toUInt8 s
      else env.dmaWrite hostAddr ramAddr.toUInt16 length tag.toUInt8 s
    if r.1 then (⟨0, length.toUInt32, tag, flags, true⟩, r.2) else (⟨1, 0, tag, flags, false⟩, r.2)
  else (⟨6, 0, tag, flags, false⟩, s)

/-- From the answer to the descriptor fetch to the completion's contents. -/
def execute (env : Env σ) (descRsp : Option Message) (s : σ) : Outcome × σ :=
  match descRsp with
  | none     => ({}, s)
  | some rsp =>
    if rsp.header.isStatus .success ∧ rsp.payload.length = kDescBytes.toNat then transfer env rsp.payload s
    else ({ status := rsp.header.status }, s)

def completion (o : Outcome) (index : UInt32) : List UInt8 :=
  let cpl := List.replicate kCplBytes.toNat 0
  let cpl := storeLe cpl 0 o.tag.toUInt64 4
  let cpl := storeLe cpl 4 o.status.toUInt64 2
  let cpl := storeLe cpl 8 o.bytes.toUInt64 4
  storeLe cpl 12 index.toUInt64 4

def isSuccess (rsp : Option Message) : Bool :=
  match rsp with
  | none   => false
  | some m => m.header.isStatus .success

structure Executed where
  index       : UInt32
  transferred : Bool
  status      : UInt32
  deriving DecidableEq, Repr

/-- An iteration's record, whether the loop goes on, and the environment after it. -/
structure Turn (σ : Type) where
  executed : Executed
  goOn     : Bool
  env      : σ

def runDescriptor (env : Env σ) (descBase cplBase : UInt64) (count index : UInt32) (s : σ) : Turn σ :=
  let slot := index % count
  let fetch := env.sendRequestToHost .dmaReadReq (descBase + slot.toUInt64 * kDescBytes.toUInt64) [] kDescBytes true s
  let out := execute env fetch.1 fetch.2
  let o := out.1
  let record : Executed := ⟨index, o.transferred, o.status⟩
  let cpl := env.sendRequestToHost .dmaWriteReq (cplBase + slot.toUInt64 * kCplBytes.toUInt64) (completion o index)
    kCplBytes true out.2
  if !isSuccess cpl.1 then ⟨record, false, cpl.2⟩
  else
    let s := if o.flags &&& 1 ≠ 0 then (env.sendRequestToHost .msiX 0 [] 0 false cpl.2).2 else cpl.2
    ⟨record, o.status = 0, s⟩

structure DmaRun (σ : Type) where
  ok       : Bool
  head     : UInt32
  executed : List Executed
  env      : σ

/-- The loop, for `n` more descriptors from `index` on; the head is moved by the caller. -/
def runLoop (env : Env σ) (descBase cplBase : UInt64) (count : UInt32) : Nat → UInt32 → σ → Bool × List Executed × σ
  | 0, _, s         => (true, [], s)
  | n + 1, index, s =>
    let t := runDescriptor env descBase cplBase count index s
    if t.goOn then
      let r := runLoop env descBase cplBase count n (index + 1) t.env
      (r.1, t.executed :: r.2.1, r.2.2)
    else (false, [t.executed], t.env)

/-- `RunGenericDma`: the guard, the loop from `*head` to `tail`, and `*head = tail` only at its end. -/
def runGenericDma (env : Env σ) (descBase cplBase : UInt64) (count tail head : UInt32) (s : σ) : DmaRun σ :=
  if count = 0 ∨ count > 1024 ∨ tail < head ∨ tail - head > count then ⟨false, head, [], s⟩
  else
    let r := runLoop env descBase cplBase count (tail.toNat - head.toNat) head s
    ⟨r.1, if r.1 then tail else head, r.2.1, r.2.2⟩

/-! ## The main loop -/

/-- The variables of `main`. -/
structure Shadow where
  asq        : UInt64 := 0
  acq        : UInt64 := 0
  descBase   : UInt64 := 0
  cplBase    : UInt64 := 0
  descCount  : UInt32 := 0
  descHead   : UInt32 := 0
  dmaControl : UInt32 := 0
  dmaStatus  : UInt32 := 0
  deriving DecidableEq, Repr

/-- The assignments that follow a register write, whatever its status. -/
def Shadow.assign (v : Shadow) (address data : UInt64) : Shadow :=
  if address = 0x28 then { v with asq := data }
  else if address = 0x30 then { v with acq := data }
  else if address = 0x1040 then { v with descBase := (v.descBase &&& (0xffffffff00000000 : UInt64)) ||| data }
  else if address = 0x1044 then { v with descBase := (v.descBase &&& (0xffffffff : UInt64)) ||| (data <<< 32) }
  else if address = 0x1048 then { v with cplBase := (v.cplBase &&& (0xffffffff00000000 : UInt64)) ||| data }
  else if address = 0x104c then { v with cplBase := (v.cplBase &&& (0xffffffff : UInt64)) ||| (data <<< 32) }
  else if address = 0x1050 then { v with descCount := data.toUInt32 }
  else if address = 0x105c then
    { v with dmaControl := data.toUInt32, dmaStatus := if data.toUInt32 &&& 2 ≠ 0 then 0 else v.dmaStatus }
  else v

def Shadow.tailDoorbell (env : Env σ) (v : Shadow) (address data : UInt64) (s : σ) : Shadow × List Executed × σ :=
  if address = 0x1054 ∧ v.dmaControl &&& 1 ≠ 0 ∧ v.descCount ≠ 0 then
    let r := runGenericDma env v.descBase v.cplBase v.descCount data.toUInt32 v.descHead s
    ({ v with descHead := r.head, dmaStatus := if r.ok then 0 else 1 }, r.executed, r.env)
  else (v, [], s)

/-- The SQ0 doorbell: the command is read, and if anything at all came back the completion and the interrupt follow. -/
def sq0Doorbell (env : Env σ) (v : Shadow) (address : UInt64) (s : σ) : σ :=
  if address = 0x1000 ∧ env.doorbellSeen s then
    let read := env.sendRequestToHost .dmaReadReq v.asq [] 64 true (env.clearDoorbell s)
    match read.1 with
    | none   => read.2
    | some _ =>
      let cpl := (List.range 16).map (fun i => UInt8.ofNat (0xc0 + i))
      let s := (env.sendRequestToHost .dmaWriteReq v.acq cpl 16 true read.2).2
      (env.sendRequestToHost .msiX 0 [] 0 false s).2
  else s

structure Handled (σ : Type) where
  shadow   : Shadow
  executed : List Executed := []
  stop     : Bool := false
  env      : σ

/-- `harness.Mmio`, or the shortcut that answers for the DMA status register. -/
def access (env : Env σ) (v : Shadow) (write : Bool) (address : UInt64) (length : UInt32) (data : UInt64) (s : σ) :
    (UInt64 × UInt32) × σ :=
  if write = false ∧ address = 0x1058 then ((v.dmaStatus.toUInt64, 0), s)
  else
    let r := env.mmio write address length data s
    (match r.1 with | some (result, status) => (result, status) | none => (0, 5), r.2)

def handleWrite (env : Env σ) (v : Shadow) (msg : Message) (length : UInt32) (s : σ) : Handled σ :=
  let address := msg.header.address
  let data := decodeLe msg.payload
  let a := access env v true address length data s
  let v := v.assign address data
  let rsp := makeHeader .mmioWriteRsp msg.header.txnId address 0 (if a.1.2 = 0 then .success else .errorGeneric)
    (env.simTime a.2) 0 kFlagIsResponse
  let s := env.sendResponse rsp [] a.2
  let d := v.tailDoorbell env address data s
  { shadow := d.1, executed := d.2.1, env := sq0Doorbell env d.1 address d.2.2 }

def handleRead (env : Env σ) (v : Shadow) (msg : Message) (length : UInt32) (s : σ) : Handled σ :=
  let a := access env v false msg.header.address length (decodeLe msg.payload) s
  let payload := if a.1.2 = 0 then encodeLe a.1.1 length else []
  let rsp := makeHeader .mmioReadRsp msg.header.txnId msg.header.address 0
    (if a.1.2 = 0 then .success else .errorGeneric) (env.simTime a.2) (UInt32.ofNat payload.length) kFlagIsResponse
    (UInt32.ofNat payload.length)
  { shadow := v, env := env.sendResponse rsp payload a.2 }

/-- The body of the main loop for a polled message. -/
def handle (env : Env σ) (v : Shadow) (msg : Message) (s : σ) : Handled σ :=
  let length := if msg.header.transferLen ≠ 0 then msg.header.transferLen else UInt32.ofNat msg.payload.length
  if msg.header.isType .resetReq then
    let s := env.reset s
    let rsp := makeHeader .resetRsp msg.header.txnId 0 0 .success (env.simTime s) 0 kFlagIsResponse
    { shadow := v, env := env.sendResponse rsp [] s }
  else if msg.header.isType .mmioWriteReq then handleWrite env v msg length s
  else if msg.header.isType .mmioReadReq then handleRead env v msg length s
  else { shadow := v, stop := msg.header.isType .shutdown, env := s }

/-! ## Two runs of the DMA loop -/

variable {τ : Type}

/-- Whatever the loop of `RunGenericDma` calls answers the same in related states of two environments and keeps them
related. -/
structure Env.Sim (env : Env σ) (env' : Env τ) (Q : σ → τ → Prop) : Prop where
  request  : ∀ t a p n e s s', Q s s' →
    (env.sendRequestToHost t a p n e s).1 = (env'.sendRequestToHost t a p n e s').1 ∧
      Q (env.sendRequestToHost t a p n e s).2 (env'.sendRequestToHost t a p n e s').2
  dmaRead  : ∀ a r n t s s', Q s s' →
    (env.dmaRead a r n t s).1 = (env'.dmaRead a r n t s').1 ∧ Q (env.dmaRead a r n t s).2 (env'.dmaRead a r n t s').2
  dmaWrite : ∀ a r n t s s', Q s s' →
    (env.dmaWrite a r n t s).1 = (env'.dmaWrite a r n t s').1 ∧
      Q (env.dmaWrite a r n t s).2 (env'.dmaWrite a r n t s').2

namespace Env.Sim

variable {env : Env σ} {env' : Env τ} {Q : σ → τ → Prop} {s : σ} {s' : τ}

theorem transfer (h : env.Sim env' Q) (desc : List UInt8) (hs : Q s s') :
    (transfer env desc s).1 = (transfer env' desc s').1 ∧ Q (transfer env desc s).2 (transfer env' desc s').2 := by
  unfold Verilator.transfer
  dsimp only
  split
  · by_cases hop : desc.getD 14 0 = 0
    · obtain ⟨hok, hq⟩ := h.dmaRead (readLe64 desc 0) (readLe32 desc 8).toUInt16 (readLe16 desc 12)
        (readLe32 desc 16).toUInt8 s s' hs
      simp only [hop, if_true, hok]
      split <;> exact ⟨rfl, hq⟩
    · obtain ⟨hok, hq⟩ := h.dmaWrite (readLe64 desc 0) (readLe32 desc 8).toUInt16 (readLe16 desc 12)
        (readLe32 desc 16).toUInt8 s s' hs
      simp only [hop, if_false, hok]
      split <;> exact ⟨rfl, hq⟩
  · exact ⟨rfl, hs⟩

theorem execute (h : env.Sim env' Q) (rsp : Option Message) (hs : Q s s') :
    (execute env rsp s).1 = (execute env' rsp s').1 ∧ Q (execute env rsp s).2 (execute env' rsp s').2 := by
  unfold Verilator.execute
  split
  · exact ⟨rfl, hs⟩
  · split
    · exact h.transfer _ hs
    · exact ⟨rfl, hs⟩

theorem runDescriptor (h : env.Sim env' Q) (descBase cplBase : UInt64) (count index : UInt32) (hs : Q s s') :
    let t := runDescriptor env descBase cplBase count index s
    let t' := runDescriptor env' descBase cplBase count index s'
    t.executed = t'.executed ∧ t.goOn = t'.goOn ∧ Q t.env t'.env := by
  unfold Verilator.runDescriptor
  dsimp only
  obtain ⟨hfetch, hq⟩ := h.request .dmaReadReq (descBase + (index % count).toUInt64 * kDescBytes.toUInt64) [] kDescBytes
    true s s' hs
  rw [hfetch]
  obtain ⟨hout, hq⟩ := h.execute (env'.sendRequestToHost .dmaReadReq
    (descBase + (index % count).toUInt64 * kDescBytes.toUInt64) [] kDescBytes true s').1 hq
  rw [hout]
  obtain ⟨hcpl, hq⟩ := h.request .dmaWriteReq (cplBase + (index % count).toUInt64 * kCplBytes.toUInt64)
    (completion _ index) kCplBytes true _ _ hq
  rw [hcpl]
  split
  · exact ⟨rfl, rfl, hq⟩
  · split
    · exact ⟨rfl, rfl, (h.request _ _ _ _ _ _ _ hq).2⟩
    · exact ⟨rfl, rfl, hq⟩

theorem runLoop (h : env.Sim env' Q) (descBase cplBase : UInt64) (count : UInt32) :
    ∀ (n : Nat) (index : UInt32) {s : σ} {s' : τ}, Q s s' →
    let r := runLoop env descBase cplBase count n index s
    let r' := runLoop env' descBase cplBase count n index s'
    r.1 = r'.1 ∧ r.2.1 = r'.2.1 ∧ Q r.2.2 r'.2.2
  | 0, _, _, _, hs          => ⟨rfl, rfl, hs⟩
  | n + 1, index, s, s', hs => by
    obtain ⟨hrecord, hgo, hq⟩ := h.runDescriptor descBase cplBase count index hs
    dsimp only
    rw [Verilator.runLoop, Verilator.runLoop]
    dsimp only
    rw [hrecord, hgo]
    split
    · obtain ⟨hok, hrest, hq⟩ := h.runLoop descBase cplBase count n (index + 1) hq
      exact ⟨hok, by rw [hrest], hq⟩
    · exact ⟨rfl, rfl, hq⟩

/-- **So does the whole of `RunGenericDma`.** -/
theorem runGenericDma (h : env.Sim env' Q) (descBase cplBase : UInt64) (count tail head : UInt32) (hs : Q s s') :
    let r := runGenericDma env descBase cplBase count tail head s
    let r' := runGenericDma env' descBase cplBase count tail head s'
    r.ok = r'.ok ∧ r.head = r'.head ∧ r.executed = r'.executed ∧ Q r.env r'.env := by
  unfold Verilator.runGenericDma
  split
  · exact ⟨rfl, rfl, rfl, hs⟩
  · obtain ⟨hok, hrest, hq⟩ := h.runLoop descBase cplBase count (tail.toNat - head.toNat) head hs
    exact ⟨hok, by dsimp only; rw [hok], hrest, hq⟩

end Env.Sim

structure Env.Twins (env : Env σ) (Q : σ → σ → Prop) : Prop where
  request  : ∀ t a p n e s s', Q s s' →
    (env.sendRequestToHost t a p n e s).1 = (env.sendRequestToHost t a p n e s').1 ∧
      Q (env.sendRequestToHost t a p n e s).2 (env.sendRequestToHost t a p n e s').2
  dmaRead  : ∀ a r n t s s', Q s s' →
    (env.dmaRead a r n t s).1 = (env.dmaRead a r n t s').1 ∧ Q (env.dmaRead a r n t s).2 (env.dmaRead a r n t s').2
  dmaWrite : ∀ a r n t s s', Q s s' →
    (env.dmaWrite a r n t s).1 = (env.dmaWrite a r n t s').1 ∧ Q (env.dmaWrite a r n t s).2 (env.dmaWrite a r n t s').2

theorem Env.Twins.sim {env : Env σ} {Q : σ → σ → Prop} (h : env.Twins Q) : env.Sim env Q :=
  ⟨h.request, h.dmaRead, h.dmaWrite⟩

theorem Env.Twins.runGenericDma {env : Env σ} {Q : σ → σ → Prop} {s s' : σ} (h : env.Twins Q)
    (descBase cplBase : UInt64) (count tail head : UInt32) (hs : Q s s') :
    let r := Verilator.runGenericDma env descBase cplBase count tail head s
    let r' := Verilator.runGenericDma env descBase cplBase count tail head s'
    r.ok = r'.ok ∧ r.head = r'.head ∧ Q r.env r'.env := by
  obtain ⟨hok, hhead, -, hq⟩ := h.sim.runGenericDma descBase cplBase count tail head hs
  exact ⟨hok, hhead, hq⟩

structure Env.Keeps (env : Env σ) (P : σ → Prop) : Prop where
  request  : ∀ t a p n e s, P s → P (env.sendRequestToHost t a p n e s).2
  dmaRead  : ∀ a r n t s, P s → P (env.dmaRead a r n t s).2
  dmaWrite : ∀ a r n t s, P s → P (env.dmaWrite a r n t s).2

namespace Env.Keeps

variable {env : Env σ} {P : σ → Prop}

theorem twins (h : env.Keeps P) : env.Twins (fun s s' => s = s' ∧ P s) where
  request t a p n e s s' := by
    rintro ⟨rfl, hs⟩
    exact ⟨rfl, rfl, h.request t a p n e s hs⟩
  dmaRead a r n t s s' := by
    rintro ⟨rfl, hs⟩
    exact ⟨rfl, rfl, h.dmaRead a r n t s hs⟩
  dmaWrite a r n t s s' := by
    rintro ⟨rfl, hs⟩
    exact ⟨rfl, rfl, h.dmaWrite a r n t s hs⟩

/-- **The whole of `RunGenericDma` keeps what each of its calls keeps.** -/
theorem runGenericDma (h : env.Keeps P) (descBase cplBase : UInt64) (count tail head : UInt32) {s : σ} (hs : P s) :
    P (runGenericDma env descBase cplBase count tail head s).env :=
  (h.twins.runGenericDma descBase cplBase count tail head ⟨rfl, hs⟩).2.2.2

end Env.Keeps

end Verilator
end Vip
