import PcieVip.LibWord
import PcieVip.Verilator
/-!
# AlexTop — the MMIO path of the RTL (`axi_lite_slave_model.sv`, `alex_qemu_verilator_top.sv`, `Harness::Mmio`)

The registers of the AXI-Lite slave, a TLP at a time; the state machine that cuts a request into one or two TLPs, a
request at a time; and the harness around it.  Registers are kept as the source has them, and read and written by the
DW at an address (`Slave.word`, `Slave.put`).  Two outputs of the slave that nothing reads are left out: the pulse of
the tail register and the AXI handshake.

What is not in the repository is a parameter: `Fabric` has `pcie_axil_master_minimal`, which is assumed to forward what
it is given and to answer in time, and the value that a 4-bit port takes when it is assigned a longer one.
-/
namespace Vip
namespace Alex

open Word

/-! ## axi_lite_slave_model -/

inductive Dw where
  | cap | cc | csts | aqa | asqLo | asqHi | acqLo | acqHi | doorbell | descBaseLo | descBaseHi | cplBaseLo | cplBaseHi
  | descCount | descTail | dmaStatus | dmaControl
  deriving DecidableEq, Repr

def Dw.all : List Dw :=
  [.cap, .cc, .csts, .aqa, .asqLo, .asqHi, .acqLo, .acqHi, .doorbell, .descBaseLo, .descBaseHi, .cplBaseLo, .cplBaseHi,
   .descCount, .descTail, .dmaStatus, .dmaControl]

def Dw.address : Dw → Nat
  | .cap        => 0x0000
  | .cc         => 0x0014
  | .csts       => 0x001c
  | .aqa        => 0x0024
  | .asqLo      => 0x0028
  | .asqHi      => 0x002c
  | .acqLo      => 0x0030
  | .acqHi      => 0x0034
  | .doorbell   => 0x1000
  | .descBaseLo => 0x1040
  | .descBaseHi => 0x1044
  | .cplBaseLo  => 0x1048
  | .cplBaseHi  => 0x104c
  | .descCount  => 0x1050
  | .descTail   => 0x1054
  | .dmaStatus  => 0x1058
  | .dmaControl => 0x105c

/-- The `case` over 13 address bits. -/
def dwAt (address : Nat) : Option Dw := Dw.all.find? (fun d => d.address == address)

def Dw.isValidWrite : Dw → Bool
  | .cap  => false
  | .csts => false
  | _     => true

def Dw.isValidRead : Dw → Bool
  | .doorbell => false
  | _         => true

structure Slave where
  cc            : BitVec 32 := 0
  csts          : BitVec 32 := 0
  aqa           : BitVec 32 := 0
  asq           : BitVec 64 := 0
  acq           : BitVec 64 := 0
  descBase      : BitVec 64 := 0
  cplBase       : BitVec 64 := 0
  descCount     : BitVec 32 := 0
  descTail      : BitVec 32 := 0
  dmaStatus     : BitVec 32 := 0
  dmaControl    : BitVec 32 := 0
  doorbellValue : BitVec 32 := 0
  deriving DecidableEq, Repr

/-- The register DW; for those that can be read this is `read_value`. -/
def Slave.word (r : Slave) : Dw → BitVec 32
  | .cap        => 1
  | .cc         => r.cc
  | .csts       => r.csts
  | .aqa        => r.aqa
  | .asqLo      => lo r.asq
  | .asqHi      => hi r.asq
  | .acqLo      => lo r.acq
  | .acqHi      => hi r.acq
  | .doorbell   => r.doorbellValue
  | .descBaseLo => lo r.descBase
  | .descBaseHi => hi r.descBase
  | .cplBaseLo  => lo r.cplBase
  | .cplBaseHi  => hi r.cplBase
  | .descCount  => r.descCount
  | .descTail   => r.descTail
  | .dmaStatus  => r.dmaStatus
  | .dmaControl => r.dmaControl

def Slave.put (r : Slave) (d : Dw) (v : BitVec 32) : Slave :=
  match d with
  | .cap        => r
  | .cc         => { r with cc := v }
  | .csts       => { r with csts := v }
  | .aqa        => { r with aqa := v }
  | .asqLo      => { r with asq := join (hi r.asq) v }
  | .asqHi      => { r with asq := join v (lo r.asq) }
  | .acqLo      => { r with acq := join (hi r.acq) v }
  | .acqHi      => { r with acq := join v (lo r.acq) }
  | .doorbell   => { r with doorbellValue := v }
  | .descBaseLo => { r with descBase := join (hi r.descBase) v }
  | .descBaseHi => { r with descBase := join v (lo r.descBase) }
  | .cplBaseLo  => { r with cplBase := join (hi r.cplBase) v }
  | .cplBaseHi  => { r with cplBase := join v (lo r.cplBase) }
  | .descCount  => { r with descCount := v }
  | .descTail   => { r with descTail := v }
  | .dmaStatus  => { r with dmaStatus := v }
  | .dmaControl => { r with dmaControl := v }

def applyWstrb (old new : BitVec 32) (strb : BitVec 4) : BitVec 32 := putStrobe old new strb.getLsbD 4

def axilOkay : BitVec 2 := 0
def axilDecerr : BitVec 2 := 3

/-- What the write channel leaves behind: the response, the registers and `doorbell_pulse`. -/
structure Written where
  bresp : BitVec 2
  slave : Slave
  pulse : Bool
  deriving DecidableEq, Repr

/-- The `case` of the write channel. -/
def Slave.store (r : Slave) (d : Dw) (wdata : BitVec 32) (wstrb : BitVec 4) : Slave :=
  match d with
  | .cc       =>
    { r with cc := applyWstrb r.cc wdata wstrb
             csts := (BitVec.ofBool (if wstrb.getLsbD 0 then wdata.getLsbD 0 else r.cc.getLsbD 0)).setWidth 32 }
  | .doorbell => r.put .doorbell wdata
  | d         => r.put d (applyWstrb (r.word d) wdata wstrb)

def Slave.axiWrite (r : Slave) (awaddr : BitVec 64) (wdata : BitVec 32) (wstrb : BitVec 4) : Written :=
  match dwAt (awaddr.toNat % 2 ^ 13) with
  | some d => if d.isValidWrite then ⟨axilOkay, r.store d wdata wstrb, d == .doorbell⟩ else ⟨axilDecerr, r, false⟩
  | none   => ⟨axilDecerr, r, false⟩

def Slave.axiRead (r : Slave) (araddr : BitVec 64) : BitVec 32 × BitVec 2 :=
  match dwAt (araddr.toNat % 2 ^ 13) with
  | some d => if d.isValidRead then (r.word d, axilOkay) else (0, axilDecerr)
  | none   => (0, axilDecerr)

/-! ## TLPs -/

/-- The fields of a memory TLP that are read: bits 71:68 and 63:34 of the header, and the data DW. -/
structure Tlp where
  isWrite : Bool
  firstBe : BitVec 4
  address : BitVec 30
  data    : BitVec 32
  deriving DecidableEq, Repr

def byteEnable (byteOffset length : Nat) : BitVec 4 :=
  bits (fun i => decide (byteOffset ≤ i ∧ i < byteOffset + length)) 4

def makeTlp (isWrite : Bool) (address : BitVec 64) (length : Nat) (data : BitVec 32) : Tlp :=
  ⟨isWrite, byteEnable (address.toNat % 4) length, address.extractLsb' 2 30, data⟩

def Tlp.dwAddress (t : Tlp) : BitVec 64 := t.address.setWidth 64 <<< 2

/-- `pcie_axil_master_minimal`, and the port of the verilated model that takes the length. -/
structure Fabric where
  write         : Tlp → BitVec 64 × BitVec 32 × BitVec 4
  readAddress   : Tlp → BitVec 64
  /-- From `rdata` and `rresp` the data of the completion and bits 47 to 45 of its header, where `ST_READ_WAIT` looks
  for the status.  They are the upper bits of the tag: zero for the tags 1 and 5 of the two TLPs, whatever `rresp` is,
  if the completion has the tag of its request. -/
  complete      : BitVec 32 → BitVec 2 → BitVec 32 × BitVec 3
  lenPort       : UInt32 → Nat
  write_eq      : ∀ t, write t = (t.dwAddress, t.data, t.firstBe)
  readAddress_eq : ∀ t, readAddress t = t.dwAddress
  complete_okay : ∀ d, complete d axilOkay = (d, 0)
  lenPort_eq    : ∀ n, n < 16 → lenPort n = n.toNat

/-- A fabric whose completions have the tags of their requests and that cuts the length to its port. -/
def Fabric.plain : Fabric where
  write t := (t.dwAddress, t.data, t.firstBe)
  readAddress t := t.dwAddress
  complete d _ := (d, 0)
  lenPort n := n.toNat % 16
  write_eq _ := rfl
  readAddress_eq _ := rfl
  complete_okay _ := rfl
  lenPort_eq _ h := Nat.mod_eq_of_lt h

def Slave.memWrite (fab : Fabric) (r : Slave) (t : Tlp) : Written :=
  let w := fab.write t
  r.axiWrite w.1 w.2.1 w.2.2

def Slave.memRead (fab : Fabric) (r : Slave) (t : Tlp) : BitVec 32 × BitVec 3 :=
  let c := r.axiRead (fab.readAddress t)
  fab.complete c.1 c.2

/-! ## The state machine of alex_qemu_verilator_top -/

structure Req where
  write   : Bool
  address : BitVec 64
  length  : Nat
  data    : BitVec 64

structure Harness where
  slave        : Slave := {}
  doorbellSeen : Bool := false
  deriving DecidableEq, Repr

def chunkLen (length offset : Nat) : Nat := if length - offset ≥ 4 then 4 else length - offset

def Req.tlp (q : Req) (offset : Nat) : Tlp :=
  makeTlp q.write (q.address + BitVec.ofNat 64 offset) (chunkLen q.length offset)
    (if offset = 0 then lo q.data else hi q.data)

/-- From `ST_SEND` to `ST_RESPONSE`, for at most `n` TLPs: `bad` is `response_status_reg`, `rdata` the data register.
An error does not end the loop. -/
def Harness.transact (fab : Fabric) (q : Req) :
    Nat → Nat → Bool → BitVec 64 → Harness → (BitVec 64 × BitVec 2) × Harness
  | 0, _, _, _, s                => ((0, 3), s)
  | n + 1, offset, bad, rdata, s =>
    let next := offset + chunkLen q.length offset
    if q.write then
      let w := s.slave.memWrite fab (q.tlp offset)
      let bad := bad || w.bresp != 0
      let s := { slave := w.slave, doorbellSeen := s.doorbellSeen || w.pulse }
      if next < q.length then transact fab q n next bad rdata s else ((0, if bad then 3 else 0), s)
    else
      let c := s.slave.memRead fab (q.tlp offset)
      let bad := bad || c.2 != 0
      let rdata := if offset = 0 then join (hi rdata) c.1 else join c.1 (lo rdata)
      if next < q.length then transact fab q n next bad rdata s
      else ((if offset = 0 then c.1.setWidth 64 else rdata, if bad then 3 else 0), s)

/-! ## The harness -/

/-- The lengths that `ST_IDLE` accepts. -/
def lengths : List Nat := [1, 2, 4, 8]

def Harness.mmio (fab : Fabric) (write : Bool) (address : UInt64) (length : UInt32) (data : UInt64) (s : Harness) :
    Option (UInt64 × UInt32) × Harness :=
  let len := fab.lenPort length
  if len ∈ lengths then
    let r := s.transact fab ⟨write, address.toBitVec, len, data.toBitVec⟩ len 0 false 0
    (some (UInt64.ofBitVec r.1.1, UInt32.ofNat r.1.2.toNat), r.2)
  else (some (0, 3), s)

/-- `Harness::Reset`: the latch stays. -/
def Harness.reset (s : Harness) : Harness := { s with slave := {} }

/-! ## The environment of the main loop -/

/-- The server with the host behind it, and the DMA engine with its RAM. -/
structure HostSide (τ : Type) where
  sendRequestToHost : Ics.MessageType → UInt64 → List UInt8 → UInt32 → Bool → τ → Option Ics.Message × τ
  sendResponse      : Ics.Header → List UInt8 → τ → τ
  dmaRead           : UInt64 → UInt16 → UInt16 → UInt8 → τ → Bool × τ
  dmaWrite          : UInt64 → UInt16 → UInt16 → UInt8 → τ → Bool × τ
  reset             : τ → τ
  simTime           : τ → UInt64

structure Sim (τ : Type) where
  harness : Harness
  host    : τ

variable {τ : Type}

/-- What the main loop calls; the DMA engine touches no register. -/
def env (fab : Fabric) (host : HostSide τ) : Verilator.Env (Sim τ) where
  sendRequestToHost type address payload transferLen expectResponse s :=
    let r := host.sendRequestToHost type address payload transferLen expectResponse s.host
    (r.1, { s with host := r.2 })
  sendResponse h payload s := { s with host := host.sendResponse h payload s.host }
  dmaRead address ramAddr length tag s :=
    let r := host.dmaRead address ramAddr length tag s.host
    (r.1, { s with host := r.2 })
  dmaWrite address ramAddr length tag s :=
    let r := host.dmaWrite address ramAddr length tag s.host
    (r.1, { s with host := r.2 })
  mmio write address length data s :=
    let r := s.harness.mmio fab write address length data
    (r.1, { s with harness := r.2 })
  reset s := ⟨s.harness.reset, host.reset s.host⟩
  doorbellSeen s := s.harness.doorbellSeen
  clearDoorbell s := { s with harness := { s.harness with doorbellSeen := false } }
  simTime s := host.simTime s.host

def barWrite (address : UInt64) (payload : List UInt8) : Ics.Message :=
  ⟨Ics.makeHeader .mmioWriteReq 2 address 0 .success 0 (UInt32.ofNat payload.length) Ics.kFlagNone
    (UInt32.ofNat payload.length), payload⟩

def barRead (address : UInt64) (length : UInt32) : Ics.Message :=
  ⟨Ics.makeHeader .mmioReadReq 2 address 0 .success 0 0 Ics.kFlagNone length, []⟩

/-! ## Registers by their DWs -/

theorem dwAt_address (d : Dw) : dwAt d.address = some d := by cases d <;> rfl

theorem dwAt_eq_some_iff {a : Nat} {d : Dw} : dwAt a = some d ↔ d.address = a := by
  constructor
  · intro h
    simpa using List.find?_some h
  · rintro rfl
    exact dwAt_address d

theorem address_lt (d : Dw) : d.address < 2 ^ 13 := by cases d <;> decide

theorem address_mod (d : Dw) : d.address % 4 = 0 := by cases d <;> rfl

theorem address_inj {d e : Dw} (h : d.address = e.address) : d = e := by
  have := dwAt_address d
  rw [h, dwAt_address] at this
  exact (Option.some.inj this).symm

/-- **A DW reads back what was put, and no other changes.** -/
theorem word_put (r : Slave) {d : Dw} (hd : d ≠ .cap) (v : BitVec 32) (e : Dw) :
    (r.put d v).word e = if e = d then v else r.word e := by
  by_cases he : e = d
  · subst he
    rw [if_pos rfl]
    cases e <;> first | rfl | exact absurd rfl hd | simp only [Slave.put, Slave.word, lo_join, hi_join]
  · rw [if_neg he]
    cases d <;> cases e <;> first | rfl | exact absurd rfl he | simp only [Slave.put, Slave.word, lo_join, hi_join]

theorem byteAt_applyWstrb (old new : BitVec 32) (strb : BitVec 4) {k : Nat} (hk : k < 4) :
    byteAt (applyWstrb old new strb) k = if strb.getLsbD k = true then byteAt new k else byteAt old k := by
  rw [applyWstrb, byteAt_putStrobe old new strb.getLsbD k (by decide)]
  simp [hk]

theorem byteEnable_getLsbD (o n : Nat) {k : Nat} (hk : k < 4) :
    (byteEnable o n).getLsbD k = decide (o ≤ k ∧ k < o + n) := by
  rw [byteEnable, getLsbD_bits _ hk]
  simp [hk]

theorem applyWstrb_full (old new : BitVec 32) : applyWstrb old new (byteEnable 0 4) = new := by
  apply eq_of_byteAt (n := 4) rfl
  intro k hk
  rw [byteAt_applyWstrb _ _ _ hk, byteEnable_getLsbD 0 4 hk]
  simp [hk]

/-! ## One TLP -/

def reached (address : Nat) : Option Dw := dwAt (address % 2 ^ 13 / 4 * 4)

theorem dwAddress_makeTlp (isWrite : Bool) (address : BitVec 64) (length : Nat) (data : BitVec 32) :
    (makeTlp isWrite address length data).dwAddress.toNat % 2 ^ 13 = address.toNat % 2 ^ 13 / 4 * 4 := by
  simp only [makeTlp, Tlp.dwAddress, BitVec.toNat_shiftLeft, BitVec.toNat_setWidth, BitVec.extractLsb'_toNat,
    Nat.shiftRight_eq_div_pow, Nat.shiftLeft_eq]
  omega

theorem memWrite_makeTlp (fab : Fabric) (r : Slave) (isWrite : Bool) (address : BitVec 64) (length : Nat)
    (data : BitVec 32) :
    r.memWrite fab (makeTlp isWrite address length data) =
      match reached address.toNat with
      | some d =>
        if d.isValidWrite then ⟨axilOkay, r.store d data (byteEnable (address.toNat % 4) length), d == .doorbell⟩
        else ⟨axilDecerr, r, false⟩
      | none   => ⟨axilDecerr, r, false⟩ := by
  simp only [Slave.memWrite, fab.write_eq, Slave.axiWrite, dwAddress_makeTlp, reached]
  rfl

/-- A write to this DW stores the enabled bytes and does nothing else. -/
def Dw.plain : Dw → Bool
  | .cap      => false
  | .cc       => false
  | .csts     => false
  | .doorbell => false
  | _         => true

theorem Dw.valid_of_plain {d : Dw} (h : d.plain = true) :
    d.isValidWrite = true ∧ d.isValidRead = true ∧ d ≠ .cap ∧ (d == .doorbell) = false := by
  cases d <;> first | exact ⟨rfl, rfl, nofun, rfl⟩ | cases h

theorem store_plain (r : Slave) {d : Dw} (h : d.plain = true) (wdata : BitVec 32) (wstrb : BitVec 4) :
    r.store d wdata wstrb = r.put d (applyWstrb (r.word d) wdata wstrb) := by
  cases d <;> first | rfl | cases h

theorem reached_of_address {a : Nat} {d : Dw} (h : d.address = a / 4 * 4) : reached a = some d := by
  have hlt := address_lt d
  have hmod := address_mod d
  have ha : a % 2 ^ 13 / 4 * 4 = d.address := by omega
  rw [reached, ha, dwAt_address]

theorem memWrite_plain (fab : Fabric) (r : Slave) (isWrite : Bool) {address : BitVec 64} (length : Nat)
    (data : BitVec 32) {d : Dw} (hd : reached address.toNat = some d) (hp : d.plain = true) :
    r.memWrite fab (makeTlp isWrite address length data) =
      ⟨axilOkay, r.put d (applyWstrb (r.word d) data (byteEnable (address.toNat % 4) length)), false⟩ := by
  obtain ⟨hw, -, -, hbell⟩ := Dw.valid_of_plain hp
  rw [memWrite_makeTlp, hd]
  simp only [hw, if_true, store_plain r hp, hbell]

theorem memRead_makeTlp (fab : Fabric) (r : Slave) (isWrite : Bool) (address : BitVec 64) (length : Nat)
    (data : BitVec 32) {d : Dw} (hd : reached address.toNat = some d) (hr : d.isValidRead = true) :
    r.memRead fab (makeTlp isWrite address length data) = (r.word d, 0) := by
  unfold reached at hd
  simp only [Slave.memRead, fab.readAddress_eq, Slave.axiRead, dwAddress_makeTlp, hd, hr, if_true, fab.complete_okay]

/-! ## One request -/

theorem tlp_zero (write : Bool) (address data : BitVec 64) (length : Nat) :
    Req.tlp ⟨write, address, length, data⟩ 0 = makeTlp write address (chunkLen length 0) (lo data) := by
  simp [Req.tlp]

theorem tlp_four (write : Bool) (address data : BitVec 64) :
    Req.tlp ⟨write, address, 8, data⟩ 4 = makeTlp write (address + 4) 4 (hi data) := rfl

theorem transact_one (fab : Fabric) (q : Req) {n : Nat} (hn : n ≠ 0) (h : chunkLen q.length 0 = q.length)
    (s : Harness) :
    s.transact fab q n 0 false 0 =
      if q.write then
        let w := s.slave.memWrite fab (q.tlp 0)
        ((0, if w.bresp != 0 then 3 else 0), ⟨w.slave, s.doorbellSeen || w.pulse⟩)
      else
        let c := s.slave.memRead fab (q.tlp 0)
        ((c.1.setWidth 64, if c.2 != 0 then 3 else 0), s) := by
  obtain ⟨m, rfl⟩ := Nat.exists_eq_succ_of_ne_zero hn
  rw [Harness.transact]
  simp only [h, Nat.zero_add, Nat.lt_irrefl, if_false, Bool.false_or, if_true]

theorem transact_two (fab : Fabric) (write : Bool) (address data : BitVec 64) (s : Harness) :
    s.transact fab ⟨write, address, 8, data⟩ 8 0 false 0 =
      let q : Req := ⟨write, address, 8, data⟩
      if write then
        let w := s.slave.memWrite fab (q.tlp 0)
        let x := w.slave.memWrite fab (q.tlp 4)
        ((0, if w.bresp != 0 || x.bresp != 0 then 3 else 0), ⟨x.slave, s.doorbellSeen || w.pulse || x.pulse⟩)
      else
        let c := s.slave.memRead fab (q.tlp 0)
        let e := s.slave.memRead fab (q.tlp 4)
        ((join e.1 (lo (join (hi 0) c.1)), if c.2 != 0 || e.2 != 0 then 3 else 0), s) := by
  cases write <;> rfl

theorem mem_lengths {n : Nat} : n ∈ lengths ↔ n = 1 ∨ n = 2 ∨ n = 4 ∨ n = 8 := by
  simp [lengths]

structure Short (n : Nat) : Prop where
  pos   : n ≠ 0
  mem   : n ∈ lengths
  chunk : chunkLen n 0 = n

theorem short_of {n : Nat} (h : n = 1 ∨ n = 2 ∨ n = 4) : Short n := by
  rcases h with rfl | rfl | rfl
  · exact ⟨by decide, by decide, rfl⟩
  · exact ⟨by decide, by decide, rfl⟩
  · exact ⟨by decide, by decide, rfl⟩

theorem lenPort_short (fab : Fabric) {length : UInt32} (h : length = 1 ∨ length = 2 ∨ length = 4) :
    fab.lenPort length = length.toNat ∧ (length.toNat = 1 ∨ length.toNat = 2 ∨ length.toNat = 4) := by
  rcases h with rfl | rfl | rfl
  · exact ⟨fab.lenPort_eq _ (by decide), .inl rfl⟩
  · exact ⟨fab.lenPort_eq _ (by decide), .inr (.inl rfl)⟩
  · exact ⟨fab.lenPort_eq _ (by decide), .inr (.inr rfl)⟩

section Request

variable (fab : Fabric) (s : Harness) (address data : UInt64) {length : UInt32}

theorem mmio_short (write : Bool) {n : Nat} (hport : fab.lenPort length = n) (hn : n = 1 ∨ n = 2 ∨ n = 4) :
    s.mmio fab write address length data =
      if write then
        let w := s.slave.memWrite fab (makeTlp true address.toBitVec n (lo data.toBitVec))
        (some (0, if w.bresp = 0 then 0 else 3), ⟨w.slave, s.doorbellSeen || w.pulse⟩)
      else
        let c := s.slave.memRead fab (makeTlp false address.toBitVec n (lo data.toBitVec))
        (some (UInt64.ofBitVec (c.1.setWidth 64), if c.2 = 0 then 0 else 3), s) := by
  have hs := short_of hn
  unfold Harness.mmio
  rw [hport, if_pos hs.mem, transact_one fab _ hs.pos hs.chunk, tlp_zero, hs.chunk]
  cases write
  · generalize s.slave.memRead fab (makeTlp false address.toBitVec n (lo data.toBitVec)) = c
    by_cases hc : c.2 = 0#3
    · simp [hc]
    · simp [hc]
  · generalize s.slave.memWrite fab (makeTlp true address.toBitVec n (lo data.toBitVec)) = w
    by_cases hb : w.bresp = 0#2
    · simp [hb]
    · simp [hb]

theorem mmio_eight (write : Bool) (hport : fab.lenPort length = 8) :
    s.mmio fab write address length data =
      if write then
        let w := s.slave.memWrite fab (makeTlp true address.toBitVec 4 (lo data.toBitVec))
        let x := w.slave.memWrite fab (makeTlp true (address.toBitVec + 4) 4 (hi data.toBitVec))
        (some (0, if w.bresp = 0 ∧ x.bresp = 0 then 0 else 3), ⟨x.slave, s.doorbellSeen || w.pulse || x.pulse⟩)
      else
        let c := s.slave.memRead fab (makeTlp false address.toBitVec 4 (lo data.toBitVec))
        let e := s.slave.memRead fab (makeTlp false (address.toBitVec + 4) 4 (hi data.toBitVec))
        (some (UInt64.ofBitVec (join e.1 c.1), if c.2 = 0 ∧ e.2 = 0 then 0 else 3), s) := by
  unfold Harness.mmio
  rw [hport, if_pos (by decide), transact_two]
  dsimp only
  rw [tlp_zero, tlp_four, show chunkLen 8 0 = 4 from rfl]
  cases write
  · generalize s.slave.memRead fab (makeTlp false address.toBitVec 4 (lo data.toBitVec)) = c
    generalize s.slave.memRead fab (makeTlp false (address.toBitVec + 4) 4 (hi data.toBitVec)) = e
    by_cases hc : c.2 = 0#3 <;> by_cases he : e.2 = 0#3 <;> simp [hc, he]
  · generalize s.slave.memWrite fab (makeTlp true address.toBitVec 4 (lo data.toBitVec)) = w
    generalize w.slave.memWrite fab (makeTlp true (address.toBitVec + 4) 4 (hi data.toBitVec)) = x
    by_cases hb : w.bresp = 0#2 <;> by_cases hx : x.bresp = 0#2 <;> simp [hb, hx]

theorem mmio_refused (write : Bool) (h : fab.lenPort length ∉ lengths) :
    s.mmio fab write address length data = (some (0, 3), s) := by
  rw [Harness.mmio, if_neg h]

theorem mmio_write_one (h : length = 1 ∨ length = 2 ∨ length = 4) :
    s.mmio fab true address length data =
      let w := s.slave.memWrite fab (makeTlp true address.toBitVec length.toNat (lo data.toBitVec))
      (some (0, if w.bresp = 0 then 0 else 3), ⟨w.slave, s.doorbellSeen || w.pulse⟩) := by
  obtain ⟨hport, hn⟩ := lenPort_short fab h
  rw [mmio_short fab s address data true hport hn, if_pos rfl]

theorem mmio_write_two :
    s.mmio fab true address 8 data =
      let w := s.slave.memWrite fab (makeTlp true address.toBitVec 4 (lo data.toBitVec))
      let x := w.slave.memWrite fab (makeTlp true (address.toBitVec + 4) 4 (hi data.toBitVec))
      (some (0, if w.bresp = 0 ∧ x.bresp = 0 then 0 else 3), ⟨x.slave, s.doorbellSeen || w.pulse || x.pulse⟩) := by
  rw [mmio_eight fab s address data true (fab.lenPort_eq 8 (by decide)), if_pos rfl]

end Request

theorem mmio_write_dw (fab : Fabric) (s : Harness) {address : UInt64} (data : UInt64) {d : Dw} (hd : d.plain = true)
    (haddr : d.address = address.toNat) :
    s.mmio fab true address 4 data = (some (0, 0), ⟨s.slave.put d (lo data.toBitVec), s.doorbellSeen⟩) := by
  have hmod := address_mod d
  have hreach : reached address.toNat = some d := reached_of_address (by omega)
  rw [mmio_write_one fab s address data (.inr (.inr rfl)), memWrite_plain fab _ _ _ _ hreach hd]
  dsimp only
  rw [UInt64.toNat_toBitVec, show address.toNat % 4 = 0 by omega]
  change (_, Harness.mk (s.slave.put d (applyWstrb _ _ (byteEnable 0 4))) _) = _
  rw [applyWstrb_full, Bool.or_false]
  rfl

theorem toNat_add_four (address : UInt64) (h : address.toNat < 2 ^ 32) :
    (address.toBitVec + 4).toNat = address.toNat + 4 := by
  rw [BitVec.toNat_add, UInt64.toNat_toBitVec]
  change (address.toNat + 4) % 2 ^ 64 = address.toNat + 4
  omega

theorem mmio_write_qw (fab : Fabric) (s : Harness) {address : UInt64} (data : UInt64) {d e : Dw} (hd : d.plain = true)
    (he : e.plain = true) (haddr : d.address = address.toNat) (hnext : e.address = d.address + 4) :
    s.mmio fab true address 8 data =
      (some (0, 0), ⟨(s.slave.put d (lo data.toBitVec)).put e (hi data.toBitVec), s.doorbellSeen⟩) := by
  have hmod := address_mod d
  have hlt := address_lt d
  have hnat := toNat_add_four address (by omega)
  have hreach : reached address.toNat = some d := reached_of_address (by omega)
  have hreach' : reached (address.toBitVec + 4).toNat = some e := reached_of_address (by omega)
  rw [mmio_write_two, memWrite_plain fab _ _ _ _ hreach hd]
  dsimp only
  rw [memWrite_plain fab _ _ _ _ hreach' he, UInt64.toNat_toBitVec, hnat, show address.toNat % 4 = 0 by omega,
    show (address.toNat + 4) % 4 = 0 by omega, applyWstrb_full, applyWstrb_full, Bool.or_false, Bool.or_false]
  rfl

theorem mmio_read_one (fab : Fabric) (s : Harness) (address data : UInt64) {length : UInt32}
    (h : length = 1 ∨ length = 2 ∨ length = 4) {d : Dw} (hd : reached address.toNat = some d)
    (hr : d.isValidRead = true) :
    s.mmio fab false address length data = (some (UInt64.ofBitVec ((s.slave.word d).setWidth 64), 0), s) := by
  obtain ⟨hport, hn⟩ := lenPort_short fab h
  rw [mmio_short fab s address data false hport hn, if_neg nofun, memRead_makeTlp fab _ _ _ _ _ hd hr]
  rfl

theorem mmio_read_two (fab : Fabric) (s : Harness) (address data : UInt64) {d e : Dw}
    (hd : reached address.toNat = some d) (hdr : d.isValidRead = true)
    (he : reached (address.toBitVec + 4).toNat = some e) (her : e.isValidRead = true) :
    s.mmio fab false address 8 data = (some (UInt64.ofBitVec (join (s.slave.word e) (s.slave.word d)), 0), s) := by
  rw [mmio_eight fab s address data false (fab.lenPort_eq 8 (by decide)), if_neg nofun,
    memRead_makeTlp fab _ _ _ _ _ hd hdr, memRead_makeTlp fab _ _ _ _ _ he her]
  rfl

theorem sq0Doorbell_slave (fab : Fabric) (host : HostSide τ) (v : Verilator.Shadow) (address : UInt64) (s : Sim τ) :
    (Verilator.sq0Doorbell (env fab host) v address s).harness.slave = s.harness.slave := by
  unfold Verilator.sq0Doorbell
  split
  · dsimp only
    split
    · rfl
    · rfl
  · rfl

end Alex
end Vip
