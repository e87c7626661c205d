import Mathlib.Data.List.Induction
import PcieVip.Endpoints
/-!
# EndpointClock — `mini_ics_endpoint_model` over `nvme_register_model`, clock by clock

The register block is one process and the poll loop another.  Both wake at the same clock edge, and the language does
not say which of them runs first.  The loop sets the request pins by blocking assignments, so the register block sees
them at this edge if it runs second, and at the next one if it runs first.  The outputs of the register block change
after both have run.

Whatever the order, each request is answered as `NvmeRegs.pollAndDispatch` has it, in the order of the polls.  A request
is lost, and the loop with it, exactly when the register block runs first at the edge of the poll and second at the one
after it (`clocked_endpoint`).
-/
namespace Vip
namespace Endpoint

open Ics Verilator

/-! ## nvme_register_model -/

structure Block extends NvmeRegs where
  rspValid       : Bool := false
  rspRdata       : UInt64 := 0
  rspAddrInvalid : Bool := false
  doorbellPulse  : Bool := false
  deriving DecidableEq, Repr

structure Pins where
  reqValid      : Bool := false
  reqIsWrite    : Bool := false
  reqAddr       : UInt64 := 0
  reqWdata      : UInt64 := 0
  reqByteEnable : BitVec 8 := 0
  reqLen        : BitVec 4 := 0
  deriving DecidableEq, Repr

namespace Block

def clockWrite (s : Block) (i : Pins) : Block :=
  if i.reqAddr = kCcReg then
    { s with cc := i.reqWdata.toUInt32, csts := if i.reqWdata &&& 1 ≠ 0 then s.csts ||| 1 else s.csts &&& ~~~1 }
  else if i.reqAddr = kAqaReg then { s with aqa := i.reqWdata.toUInt32 }
  else if i.reqAddr = kAdminSqReg then { s with asq := i.reqWdata }
  else if i.reqAddr = kAdminCqReg then { s with acq := i.reqWdata }
  else if i.reqAddr = kSq0Doorbell then { s with doorbellPulse := true, doorbellValue := i.reqWdata.toUInt32 }
  else { s with rspAddrInvalid := true }

def clockRead (s : Block) (i : Pins) : Block :=
  if i.reqAddr = kCapReg then { s with rspRdata := kCapabilities }
  else if i.reqAddr = kCcReg then { s with rspRdata := s.cc.toUInt64 }
  else if i.reqAddr = kCstsReg then { s with rspRdata := s.csts.toUInt64 }
  else if i.reqAddr = kAqaReg then { s with rspRdata := s.aqa.toUInt64 }
  else if i.reqAddr = kAdminSqReg then { s with rspRdata := s.asq }
  else if i.reqAddr = kAdminCqReg then { s with rspRdata := s.acq }
  else { s with rspAddrInvalid := true, rspRdata := 0 }

def clock (s : Block) (i : Pins) : Block :=
  let s : Block := { s with rspValid := false, doorbellPulse := false, rspAddrInvalid := false }
  if i.reqValid then
    if i.reqAddr ≥ mmioWindowSize then { s with rspValid := true, rspAddrInvalid := true, rspRdata := 0 }
    else if i.reqIsWrite then clockWrite { s with rspValid := true } i
    else clockRead { s with rspValid := true } i
  else s

end Block

/-! ## The poll loop -/

/-- Where the poll loop stands; a request is `requested` up to the edge at which `reg_req_valid` is taken back, and
`awaiting` in the `wait` after it. -/
inductive LoopPc where
  | polling
  | requested (m : Message)
  | awaiting (m : Message)
  | closing (edges : Nat)
  | closed
  deriving DecidableEq, Repr

def LoopPc.request : LoopPc → List Message
  | .requested m => [m]
  | .awaiting m  => [m]
  | _            => []

structure Clocked where
  block  : Block := {}
  pins   : Pins := {}
  pc     : LoopPc := .polling
  script : Script
  -- history
  taken  : List Message := []

def isAccess (m : Message) : Bool := m.header.isType .mmioWriteReq || m.header.isType .mmioReadReq

/-- The pins of a request; a read leaves `reg_req_wdata` as it is. -/
def Pins.drive (undef : Undef) (m : Message) (i : Pins) : Pins :=
  let length := m.header.transferLen
  let i := { i with reqValid := true, reqAddr := m.header.address, reqLen := BitVec.ofNat 4 length.toNat }
  if m.header.isType .mmioWriteReq then
    { i with reqIsWrite := true, reqWdata := decodeLe (payloadBytes undef m.payload length) }
  else { i with reqIsWrite := false }

namespace Clocked

/-- `poll_and_dispatch` up to its first edge. -/
def dispatch (undef : Undef) (s : Clocked) (m : Message) : Clocked :=
  let s := { s with taken := s.taken ++ [m] }
  if isAccess m then { s with pins := s.pins.drive undef m, pc := .requested m }
  else if m.header.isType .resetReq then
    { s with script := miniIcsSendResponse s.script .resetRsp m.header.txnId 0 .success [] }
  else if m.header.isType .shutdown then { s with pc := .closing 5 }
  else s

/-- The rest of `handle_mmio_write` and `handle_mmio_read` after the `wait`. -/
def finish (s : Clocked) (m : Message) : Clocked :=
  let status : StatusCode := if s.block.rspAddrInvalid then .errorInvalidAddress else .success
  if m.header.isType .mmioWriteReq then
    let c := miniIcsSendResponse s.script .mmioWriteRsp m.header.txnId m.header.address status []
    { s with pc := .polling
             script := if status = .success ∧ s.block.doorbellPulse then s.block.runDmaSequence c else c }
  else
    let payload :=
      if status = .success then
        (List.range m.header.transferLen.toNat).map
          (fun i => if i < 8 then (s.block.rspRdata >>> (8 * UInt64.ofNat i)).toUInt8 else 0)
      else []
    { s with pc := .polling
             script := miniIcsSendResponse s.script .mmioReadRsp m.header.txnId m.header.address status payload }

/-- `wait (reg_rsp_valid === 1'b1)`. -/
def settle (s : Clocked) : Clocked :=
  match s.pc with
  | .awaiting m => if s.block.rspValid then s.finish m else s
  | _           => s

/-- The loop at an edge, up to the next `@(posedge clk)` or `wait`. -/
def wake (undef : Undef) (s : Clocked) (poll : Option Message) : Clocked :=
  match s.pc with
  | .polling     => poll.elim s (s.dispatch undef)
  | .requested m => { s with pins := { s.pins with reqValid := false }, pc := .awaiting m }.settle
  | .closing n   => { s with pc := if n ≤ 1 then .closed else .closing (n - 1) }
  | .awaiting _  => s
  | .closed      => s

end Clocked

/-- An edge: whether the register block runs first, and what `mini_ics_poll` has for the loop. -/
structure Edge where
  blockFirst : Bool
  poll       : Option Message := none
  deriving DecidableEq, Repr

def Clocked.edge (undef : Undef) (s : Clocked) (e : Edge) : Clocked :=
  let t := s.wake undef e.poll
  { t with block := s.block.clock (if e.blockFirst then s.pins else t.pins) }.settle

def Clocked.edges (undef : Undef) (s : Clocked) (es : List Edge) : Clocked := es.foldl (Clocked.edge undef) s

/-! ## One access of the register block -/

/-- What an access does, and what it leaves on the outputs. -/
def NvmeRegs.access (r : NvmeRegs) (i : Pins) : RegRsp × NvmeRegs :=
  if i.reqIsWrite then r.write i.reqAddr i.reqWdata else (r.read i.reqAddr, r)

structure Block.Answers (s : Block) (i : Pins) (r : NvmeRegs) : Prop where
  valid       : s.rspValid = true
  regs        : s.toNvmeRegs = (r.access i).2
  addrInvalid : s.rspAddrInvalid = (r.access i).1.addrInvalid
  doorbell    : s.doorbellPulse = (r.access i).1.doorbell
  rdata       : i.reqIsWrite = false → s.rspRdata = (r.access i).1.rdata

theorem clock_invalid (s : Block) {i : Pins} (h : i.reqValid = false) :
    (s.clock i).toNvmeRegs = s.toNvmeRegs ∧ (s.clock i).rspValid = false := by
  unfold Block.clock
  rw [h]
  exact ⟨rfl, rfl⟩

theorem clockWrite_answers (s : Block) {i : Pins} (hv : s.rspValid = true) (ha : s.rspAddrInvalid = false)
    (hd : s.doorbellPulse = false) (hin : ¬ i.reqAddr ≥ mmioWindowSize) (hw : i.reqIsWrite = true) :
    (s.clockWrite i).Answers i s.toNvmeRegs := by
  have hacc : s.toNvmeRegs.access i = s.toNvmeRegs.write i.reqAddr i.reqWdata := if_pos hw
  have hread : i.reqIsWrite ≠ false := by rw [hw]; exact Bool.noConfusion
  unfold Block.clockWrite
  unfold NvmeRegs.write at hacc
  rw [if_neg hin] at hacc
  split_ifs at hacc ⊢ <;> refine ⟨hv, ?_, ?_, ?_, fun h => absurd h hread⟩ <;> simp only [hacc, ha, hd]

theorem clockRead_answers (s : Block) {i : Pins} (hv : s.rspValid = true) (ha : s.rspAddrInvalid = false)
    (hd : s.doorbellPulse = false) (hin : ¬ i.reqAddr ≥ mmioWindowSize) (hw : i.reqIsWrite = false) :
    (s.clockRead i).Answers i s.toNvmeRegs := by
  have hacc : s.toNvmeRegs.access i = (s.toNvmeRegs.read i.reqAddr, s.toNvmeRegs) :=
    if_neg (by rw [hw]; exact Bool.false_ne_true)
  unfold Block.clockRead
  unfold NvmeRegs.read at hacc
  rw [if_neg hin] at hacc
  split_ifs at hacc ⊢ <;> refine ⟨hv, ?_, ?_, ?_, fun _ => ?_⟩ <;> simp only [hacc, ha, hd]

/-- **An edge that finds a request carries out the access of the transaction-level model.** -/
theorem clock_answers (s : Block) {i : Pins} (h : i.reqValid = true) : (s.clock i).Answers i s.toNvmeRegs := by
  unfold Block.clock
  rw [h]
  dsimp only
  rw [if_pos rfl]
  by_cases hout : i.reqAddr ≥ mmioWindowSize
  · rw [if_pos hout]
    have hacc : s.toNvmeRegs.access i = ({ addrInvalid := true }, s.toNvmeRegs) := by
      unfold NvmeRegs.access NvmeRegs.write NvmeRegs.read
      rw [if_pos hout, if_pos hout, ite_self]
    exact ⟨rfl, by rw [hacc], by rw [hacc], by rw [hacc], fun _ => by rw [hacc]⟩
  · rw [if_neg hout]
    cases hw : i.reqIsWrite with
    | true  => exact clockWrite_answers _ rfl rfl rfl hout hw
    | false => exact clockRead_answers _ rfl rfl rfl hout hw

/-- A second edge with the same request changes no register. -/
theorem access_twice (r : NvmeRegs) (i : Pins) : ((r.access i).2.access i).2 = (r.access i).2 := by
  unfold NvmeRegs.access
  split
  · unfold NvmeRegs.write
    split_ifs
    all_goals simp [UInt32.or_assoc, UInt32.and_assoc]
  · rfl

theorem reqValid_drive (undef : Undef) (m : Message) (i : Pins) : (i.drive undef m).reqValid = true := by
  unfold Pins.drive
  dsimp only
  split <;> rfl

theorem finish_script (undef : Undef) {s : Clocked} {m : Message} {i : Pins} {r : NvmeRegs} (hm : isAccess m = true)
    (h : s.block.Answers (i.drive undef m) r) :
    ((s.finish m).block.toNvmeRegs, (s.finish m).script) = NvmeRegs.pollAndDispatch undef r m s.script := by
  obtain ⟨-, hregs, hinv, hbell, hdata⟩ := h
  unfold Clocked.finish NvmeRegs.pollAndDispatch
  by_cases hw : m.header.isType .mmioWriteReq = true
  · have hacc : r.access (i.drive undef m) =
        r.write m.header.address (decodeLe (payloadBytes undef m.payload m.header.transferLen)) := by
      unfold NvmeRegs.access Pins.drive
      simp only [hw, if_true]
    rw [hacc] at hregs hinv hbell
    simp only [hw, if_true, hinv, hbell, NvmeRegs.handleMmioWrite, hregs]
  · have hr : m.header.isType .mmioReadReq = true := by
      unfold isAccess at hm
      rw [Bool.or_eq_true] at hm
      exact hm.resolve_left hw
    have hpins : (i.drive undef m).reqIsWrite = false ∧ (i.drive undef m).reqAddr = m.header.address := by
      unfold Pins.drive
      dsimp only
      rw [if_neg hw]
      exact ⟨rfl, rfl⟩
    have hacc : r.access (i.drive undef m) = (r.read m.header.address, r) := by
      unfold NvmeRegs.access
      rw [hpins.1, hpins.2, if_neg Bool.false_ne_true]
    have hdata := hdata hpins.1
    rw [hacc] at hregs hinv hdata
    simp only [hw, hr, if_true, Bool.false_eq_true, if_false, hinv, hdata, NvmeRegs.handleMmioRead, hregs]
    cases (r.read m.header.address).addrInvalid with
    | true  => simp
    | false => simp

/-! ## The phases of a request -/

/-- Between two edges: nothing under way; a request that the register block has not seen, or has carried out; a request
that it will never see; or the loop is over. -/
inductive Phase where
  | idle
  | late (m : Message)
  | early (m : Message)
  | lost (m : Message)
  | ended
  deriving DecidableEq, Repr

namespace Phase

def next : Phase → Edge → Phase
  | .idle, e    =>
    match e.poll with
    | none   => .idle
    | some m =>
      if isAccess m then if e.blockFirst then .late m else .early m
      else if m.header.isType .resetReq then .idle
      else if m.header.isType .shutdown then .ended
      else .idle
  | .late m, e  => if e.blockFirst then .idle else .lost m
  | .early _, _ => .idle
  | .lost m, _  => .lost m
  | .ended, _   => .ended

def takes : Phase → Edge → List Message
  | .idle, e => e.poll.toList
  | _, _     => []

def serves : Phase → Edge → List Message
  | .idle, e    => e.poll.toList.filter (fun m => !isAccess m)
  | .late m, e  => if e.blockFirst then [m] else []
  | .early m, _ => [m]
  | .lost _, _  => []
  | .ended, _   => []

def request : Phase → List Message
  | .late m  => [m]
  | .early m => [m]
  | .lost m  => [m]
  | _        => []

end Phase

def served (undef : Undef) (x : NvmeRegs × Script) (ms : List Message) : NvmeRegs × Script :=
  ms.foldl (fun x m => NvmeRegs.pollAndDispatch undef x.1 m x.2) x

/-- The clocked model is in a phase, and has served what led to `x`. -/
def At (undef : Undef) (s : Clocked) (x : NvmeRegs × Script) : Phase → Prop
  | .idle    => s.pc = .polling ∧ s.pins.reqValid = false ∧ s.block.toNvmeRegs = x.1 ∧ s.script = x.2
  | .late m  => s.pc = .requested m ∧ isAccess m = true ∧ (∃ i, s.pins = Pins.drive undef m i) ∧
      s.block.rspValid = false ∧ s.block.toNvmeRegs = x.1 ∧ s.script = x.2
  | .early m => s.pc = .requested m ∧ isAccess m = true ∧ (∃ i, s.pins = Pins.drive undef m i) ∧
      s.block.Answers s.pins x.1 ∧ s.script = x.2
  | .lost m  => s.pc = .awaiting m ∧ s.pins.reqValid = false ∧ s.block.rspValid = false ∧
      s.block.toNvmeRegs = x.1 ∧ s.script = x.2
  | .ended   => (s.pc.request = [] ∧ s.pc ≠ .polling) ∧ s.pins.reqValid = false ∧ s.block.toNvmeRegs = x.1 ∧
      s.script = x.2

theorem settle_eq {s : Clocked} (h : ∀ m, s.pc ≠ .awaiting m) : s.settle = s := by
  unfold Clocked.settle
  split
  · rename_i m hm
    exact absurd hm (h m)
  · rfl

theorem edge_eq (undef : Undef) {s t : Clocked} {e : Edge} (ht : s.wake undef e.poll = t)
    (h : ∀ m, t.pc ≠ .awaiting m) :
    s.edge undef e = { t with block := s.block.clock (if e.blockFirst then s.pins else t.pins) } := by
  unfold Clocked.edge
  rw [ht]
  exact settle_eq h

theorem isAccess_false {m : Message} (h : isAccess m = false) :
    m.header.isType .mmioWriteReq = false ∧ m.header.isType .mmioReadReq = false :=
  Bool.or_eq_false_iff.1 h

section Step

variable {undef : Undef} {s : Clocked} {x : NvmeRegs × Script} {e : Edge} {m : Message}

/-- One edge takes what is in phase `p` to what is in the next. -/
def Moves (undef : Undef) (s : Clocked) (x : NvmeRegs × Script) (p : Phase) (e : Edge) : Prop :=
  At undef (s.edge undef e) (served undef x (p.serves e)) (p.next e) ∧
    (s.edge undef e).taken = s.taken ++ p.takes e

theorem moves_none (h : At undef s x .idle) (hpoll : e.poll = none) : Moves undef s x .idle e := by
  obtain ⟨hpc, hv, hregs, hscript⟩ := h
  have hnext : Phase.next .idle e = .idle ∧ Phase.serves .idle e = [] ∧ Phase.takes .idle e = [] := by
    simp only [Phase.next, Phase.serves, Phase.takes, hpoll, Option.toList_none, List.filter_nil, and_self]
  have hwake : s.wake undef e.poll = s := by
    simp only [Clocked.wake, hpc, hpoll, Option.elim]
  unfold Moves
  rw [hnext.1, hnext.2.1, hnext.2.2, edge_eq undef hwake (fun m hm => by rw [hpc] at hm; cases hm), ite_self,
    List.append_nil]
  exact ⟨⟨hpc, hv, (clock_invalid s.block hv).1.trans hregs, hscript⟩, rfl⟩

theorem moves_access (h : At undef s x .idle) (hpoll : e.poll = some m) (hm : isAccess m = true) :
    Moves undef s x .idle e := by
  obtain ⟨hpc, hv, hregs, hscript⟩ := h
  obtain ⟨hclock, hout⟩ := clock_invalid s.block hv
  have hnext : Phase.next .idle e = (if e.blockFirst then .late m else .early m) ∧ Phase.serves .idle e = [] ∧
      Phase.takes .idle e = [m] := by
    simp [Phase.next, Phase.serves, Phase.takes, hpoll, hm]
  have hwake : s.wake undef e.poll =
      { s with taken := s.taken ++ [m], pins := s.pins.drive undef m, pc := .requested m } := by
    simp only [Clocked.wake, hpc, hpoll, Option.elim, Clocked.dispatch, hm, if_true]
  unfold Moves
  rw [hnext.1, hnext.2.1, hnext.2.2, edge_eq undef hwake (fun m' hm' => by cases hm')]
  refine ⟨?_, rfl⟩
  cases e.blockFirst with
  | true  => exact ⟨rfl, hm, ⟨_, rfl⟩, hout, hclock.trans hregs, hscript⟩
  | false =>
    have hans := clock_answers s.block (reqValid_drive undef m s.pins)
    rw [hregs] at hans
    exact ⟨rfl, hm, ⟨_, rfl⟩, hans, hscript⟩

theorem moves_other (h : At undef s x .idle) (hpoll : e.poll = some m) (hm : isAccess m = false) :
    Moves undef s x .idle e := by
  obtain ⟨hpc, hv, hregs, hscript⟩ := h
  have hclock := (clock_invalid s.block hv).1.trans hregs
  obtain ⟨hmw, hmr⟩ := isAccess_false hm
  have hnext : Phase.serves .idle e = [m] ∧ Phase.takes .idle e = [m] := by
    simp [Phase.serves, Phase.takes, hpoll, hm]
  have hserved : served undef x [m] = NvmeRegs.pollAndDispatch undef x.1 m x.2 := rfl
  have hwake : s.wake undef e.poll = s.dispatch undef m := by
    simp only [Clocked.wake, hpc, hpoll, Option.elim]
  unfold Moves
  rw [hnext.1, hnext.2, hserved]
  unfold NvmeRegs.pollAndDispatch Phase.next
  simp only [hpoll, hm, hmw, hmr, Bool.false_eq_true, if_false]
  by_cases hreset : m.header.isType .resetReq = true
  · have hdis : s.dispatch undef m =
        { s with taken := s.taken ++ [m]
                 script := miniIcsSendResponse s.script .resetRsp m.header.txnId 0 .success [] } := by
      simp only [Clocked.dispatch, hm, hreset, Bool.false_eq_true, if_true, if_false]
    rw [edge_eq undef (hwake.trans hdis) (fun m' hm' => by rw [hpc] at hm'; cases hm'), ite_self]
    simp only [hreset, if_true]
    exact ⟨⟨hpc, hv, hclock, by rw [hscript]⟩, trivial⟩
  · simp only [hreset, Bool.false_eq_true, if_false]
    by_cases hshut : m.header.isType .shutdown = true
    · have hdis : s.dispatch undef m = { s with taken := s.taken ++ [m], pc := .closing 5 } := by
        simp only [Clocked.dispatch, hm, hreset, hshut, Bool.false_eq_true, if_true, if_false]
      rw [edge_eq undef (hwake.trans hdis) (fun m' hm' => by cases hm'), ite_self]
      simp only [hshut, if_true]
      exact ⟨⟨⟨rfl, fun hp => by cases hp⟩, hv, hclock, hscript⟩, trivial⟩
    · have hdis : s.dispatch undef m = { s with taken := s.taken ++ [m] } := by
        simp only [Clocked.dispatch, hm, hreset, hshut, Bool.false_eq_true, if_false]
      rw [edge_eq undef (hwake.trans hdis) (fun m' hm' => by rw [hpc] at hm'; cases hm'), ite_self]
      simp only [hshut, Bool.false_eq_true, if_false]
      exact ⟨⟨hpc, hv, hclock, hscript⟩, trivial⟩

theorem finish_frame (s : Clocked) (m : Message) :
    (s.finish m).pc = .polling ∧ (s.finish m).pins = s.pins ∧ (s.finish m).block = s.block ∧
      (s.finish m).taken = s.taken := by
  unfold Clocked.finish
  dsimp only
  split <;> exact ⟨rfl, rfl, rfl, rfl⟩

theorem at_finish {i : Pins} {r : NvmeRegs} (hm : isAccess m = true) (hv : s.pins.reqValid = false)
    (h : s.block.Answers (i.drive undef m) r) (hscript : s.script = x.2) (hr : r = x.1) :
    At undef (s.finish m) (served undef x [m]) .idle ∧ (s.finish m).taken = s.taken := by
  have hfinish := finish_script undef hm h
  have hserved : served undef x [m] = NvmeRegs.pollAndDispatch undef r m s.script := by rw [hr, hscript]; rfl
  obtain ⟨hpc, hpins, -, htaken⟩ := finish_frame s m
  rw [hserved, ← hfinish]
  exact ⟨⟨hpc, by rw [hpins]; exact hv, rfl, rfl⟩, htaken⟩

theorem moves_late (h : At undef s x (.late m)) : Moves undef s x (.late m) e := by
  obtain ⟨hpc, hm, ⟨i, hpins⟩, hout, hregs, hscript⟩ := h
  have hwake : s.wake undef e.poll = { s with pins := { s.pins with reqValid := false }, pc := .awaiting m } := by
    simp only [Clocked.wake, hpc, Clocked.settle, hout, Bool.false_eq_true, if_false]
  have hedge : s.edge undef e = { s with
      pins := { s.pins with reqValid := false }, pc := .awaiting m
      block := s.block.clock (if e.blockFirst then s.pins else { s.pins with reqValid := false }) }.settle := by
    unfold Clocked.edge
    rw [hwake]
  unfold Moves
  rw [hedge]
  cases hb : e.blockFirst with
  | true  =>
    have hnext : Phase.next (.late m) e = .idle ∧ Phase.serves (.late m) e = [m] := by
      simp only [Phase.next, Phase.serves, hb, if_true, and_self]
    have hans := clock_answers s.block (i := s.pins) (by rw [hpins]; exact reqValid_drive undef m i)
    rw [hnext.1, hnext.2, if_pos rfl]
    simp only [Clocked.settle, hans.valid, if_true]
    rw [hregs, hpins] at hans
    obtain ⟨hat, htaken⟩ := at_finish (x := x)
      (s := { s with pins := { s.pins with reqValid := false }, pc := .awaiting m, block := s.block.clock s.pins })
      hm rfl (by rw [hpins]; exact hans) hscript rfl
    exact ⟨hat, htaken.trans (List.append_nil _).symm⟩
  | false =>
    have hnext : Phase.next (.late m) e = .lost m ∧ Phase.serves (.late m) e = [] := by
      simp only [Phase.next, Phase.serves, hb, Bool.false_eq_true, if_false, and_self]
    obtain ⟨hclock, hout'⟩ := clock_invalid s.block (i := { s.pins with reqValid := false }) rfl
    rw [hnext.1, hnext.2, if_neg Bool.false_ne_true]
    simp only [Clocked.settle, hout', Bool.false_eq_true, if_false]
    exact ⟨⟨rfl, rfl, hout', hclock.trans hregs, hscript⟩, (List.append_nil _).symm⟩

theorem moves_early (h : At undef s x (.early m)) : Moves undef s x (.early m) e := by
  obtain ⟨hpc, hm, ⟨i, hpins⟩, hans, hscript⟩ := h
  have hwake : s.wake undef e.poll =
      { s with pins := { s.pins with reqValid := false }, pc := .awaiting m }.finish m := by
    simp only [Clocked.wake, hpc, Clocked.settle, hans.valid, if_true]
  have hblock : (s.block.clock (if e.blockFirst then s.pins else { s.pins with reqValid := false })).toNvmeRegs =
      s.block.toNvmeRegs := by
    cases e.blockFirst with
    | true  =>
      have hagain := clock_answers s.block (i := s.pins) (by rw [hpins]; exact reqValid_drive undef m i)
      rw [if_pos rfl, hagain.regs, hans.regs, access_twice]
    | false => exact (clock_invalid s.block rfl).1
  rw [hpins] at hans
  obtain ⟨⟨hpc', -, hregs', hscript'⟩, htaken⟩ := at_finish (x := x)
    (s := { s with pins := { s.pins with reqValid := false }, pc := .awaiting m }) hm rfl hans hscript rfl
  obtain ⟨-, hpins', hblock', -⟩ :=
    finish_frame { s with pins := { s.pins with reqValid := false }, pc := .awaiting m } m
  unfold Moves
  rw [edge_eq undef hwake (fun m' hm' => by rw [hpc'] at hm'; cases hm'), hpins']
  rw [hblock'] at hregs'
  exact ⟨⟨hpc', rfl, hblock.trans hregs', hscript'⟩, htaken.trans (List.append_nil _).symm⟩

theorem moves_lost (h : At undef s x (.lost m)) : Moves undef s x (.lost m) e := by
  obtain ⟨hpc, hv, hout, hregs, hscript⟩ := h
  obtain ⟨hclock, hout'⟩ := clock_invalid s.block hv
  have hwake : s.wake undef e.poll = s := by simp only [Clocked.wake, hpc]
  have hedge : s.edge undef e = { s with block := s.block.clock s.pins } := by
    unfold Clocked.edge Clocked.settle
    rw [hwake]
    dsimp only
    rw [ite_self]
    simp only [hpc, hout', Bool.false_eq_true, if_false]
  unfold Moves
  rw [hedge]
  exact ⟨⟨hpc, hv, hout', hclock.trans hregs, hscript⟩, (List.append_nil _).symm⟩

theorem moves_ended (h : At undef s x .ended) : Moves undef s x .ended e := by
  obtain ⟨⟨hreq, hne⟩, hv, hregs, hscript⟩ := h
  have hclock := (clock_invalid s.block hv).1.trans hregs
  unfold Moves
  cases hpc : s.pc with
  | polling     => exact absurd hpc hne
  | requested m => rw [hpc] at hreq; cases hreq
  | awaiting m  => rw [hpc] at hreq; cases hreq
  | closing n   =>
    have hwake : s.wake undef e.poll = { s with pc := if n ≤ 1 then .closed else .closing (n - 1) } := by
      simp only [Clocked.wake, hpc]
    rw [edge_eq undef hwake (fun m hm => by dsimp only at hm; split at hm <;> cases hm), ite_self]
    refine ⟨⟨⟨?_, ?_⟩, hv, hclock, hscript⟩, (List.append_nil _).symm⟩
    · dsimp only
      split <;> rfl
    · dsimp only
      split <;> exact fun hp => by cases hp
  | closed      =>
    have hwake : s.wake undef e.poll = s := by simp only [Clocked.wake, hpc]
    rw [edge_eq undef hwake (fun m hm => by rw [hpc] at hm; cases hm), ite_self]
    exact ⟨⟨⟨hreq, hne⟩, hv, hclock, hscript⟩, (List.append_nil _).symm⟩

/-- **Every edge moves the clocked model as the phases say.** -/
theorem moves {p : Phase} (h : At undef s x p) : Moves undef s x p e := by
  cases p with
  | idle    =>
    cases hpoll : e.poll with
    | none   => exact moves_none h hpoll
    | some m =>
      cases hm : isAccess m with
      | true  => exact moves_access h hpoll hm
      | false => exact moves_other h hpoll hm
  | late m  => exact moves_late h
  | early m => exact moves_early h
  | lost m  => exact moves_lost h
  | ended   => exact moves_ended h

end Step

theorem stays_lost {undef : Undef} {x : NvmeRegs × Script} {m : Message} :
    ∀ (es : List Edge) {s : Clocked}, At undef s x (.lost m) → At undef (s.edges undef es) x (.lost m)
  | [], _, h      => h
  | _ :: es, _, h => stays_lost es (moves_lost h).1

/-! ## Every run -/

theorem Phase.conserve (p : Phase) (e : Edge) : p.request ++ p.takes e = p.serves e ++ (p.next e).request := by
  cases p with
  | idle    =>
    cases hpoll : e.poll with
    | none   => simp [Phase.request, Phase.takes, Phase.serves, Phase.next, hpoll]
    | some m =>
      cases hm : isAccess m with
      | true  => cases hb : e.blockFirst <;> simp [Phase.request, Phase.takes, Phase.serves, Phase.next, hpoll, hm, hb]
      | false =>
        simp only [Phase.request, Phase.takes, Phase.serves, Phase.next, hpoll, hm, Bool.false_eq_true, if_false]
        split_ifs <;> simp [hm]
  | late m  => cases hb : e.blockFirst <;> simp [Phase.request, Phase.takes, Phase.serves, Phase.next, hb]
  | early m => rfl
  | lost m  => rfl
  | ended   => rfl

def Phase.after (es : List Edge) : Phase := es.foldl Phase.next .idle

theorem Phase.after_concat (es : List Edge) (e : Edge) : Phase.after (es ++ [e]) = (Phase.after es).next e := by
  rw [Phase.after, List.foldl_append]
  rfl

/-- What has been polled is served, in this order, up to the request of the phase. -/
def Kept (undef : Undef) (c : Script) (s : Clocked) (p : Phase) : Prop :=
  ∃ done, s.taken = done ++ p.request ∧ At undef s (served undef ({}, c) done) p

theorem Kept.edge {undef : Undef} {c : Script} {s : Clocked} {p : Phase} (h : Kept undef c s p) (e : Edge) :
    Kept undef c (s.edge undef e) (p.next e) := by
  obtain ⟨done, htaken, hat⟩ := h
  obtain ⟨hat', htaken'⟩ := moves (e := e) hat
  refine ⟨done ++ p.serves e, ?_, ?_⟩
  · rw [htaken', htaken, List.append_assoc, Phase.conserve, List.append_assoc]
  · rw [served, List.foldl_append]
    exact hat'

theorem kept_edges (undef : Undef) (c : Script) (es : List Edge) :
    Kept undef c (({ script := c } : Clocked).edges undef es) (Phase.after es) := by
  induction es using List.reverseRecOn with
  | nil            => exact ⟨[], rfl, rfl, rfl, rfl, rfl⟩
  | append_singleton es e ih =>
    rw [Phase.after_concat, Clocked.edges, List.foldl_append]
    exact ih.edge e

section Pc

variable {undef : Undef} {c : Script} {s : Clocked} {p : Phase}

theorem Kept.request (h : Kept undef c s p) : s.pc.request = p.request := by
  obtain ⟨done, -, hat⟩ := h
  cases p with
  | idle    => rw [hat.1]; rfl
  | late m  => rw [hat.1]; rfl
  | early m => rw [hat.1]; rfl
  | lost m  => rw [hat.1]; rfl
  | ended   => exact hat.1.1

theorem Kept.polling_iff (h : Kept undef c s p) : s.pc = .polling ↔ p = .idle := by
  obtain ⟨done, -, hat⟩ := h
  cases p with
  | idle    => exact iff_of_true hat.1 rfl
  | late m  => rw [hat.1]; exact iff_of_false (fun hp => by cases hp) (fun hp => by cases hp)
  | early m => rw [hat.1]; exact iff_of_false (fun hp => by cases hp) (fun hp => by cases hp)
  | lost m  => rw [hat.1]; exact iff_of_false (fun hp => by cases hp) (fun hp => by cases hp)
  | ended   => exact iff_of_false hat.1.2 (fun hp => by cases hp)

theorem Kept.awaiting_iff (h : Kept undef c s p) (m : Message) : s.pc = .awaiting m ↔ p = .lost m := by
  obtain ⟨done, -, hat⟩ := h
  cases p with
  | idle     => rw [hat.1]; exact iff_of_false (fun hp => by cases hp) (fun hp => by cases hp)
  | late m'  => rw [hat.1]; exact iff_of_false (fun hp => by cases hp) (fun hp => by cases hp)
  | early m' => rw [hat.1]; exact iff_of_false (fun hp => by cases hp) (fun hp => by cases hp)
  | lost m'  =>
    rw [hat.1]
    exact ⟨fun hp => by cases hp; rfl, fun hp => by cases hp; rfl⟩
  | ended    =>
    refine iff_of_false (fun hp => ?_) (fun hp => by cases hp)
    have hreq := hat.1.1
    rw [hp] at hreq
    cases hreq

end Pc

/-! ## Which requests are lost -/

/-- The register block runs first at the edge of a poll, and second at the edge after it. -/
def Overtaken (undef : Undef) (c : Script) (es : List Edge) : Prop :=
  ∃ (pre : List Edge) (e e' : Edge) (post : List Edge), es = pre ++ e :: e' :: post ∧
    (({ script := c } : Clocked).edges undef pre).pc = .polling ∧ (∃ m, e.poll = some m ∧ isAccess m = true) ∧
    e.blockFirst = true ∧ e'.blockFirst = false

theorem next_late {p : Phase} {e : Edge} {m : Message} (h : p.next e = .late m) :
    p = .idle ∧ e.poll = some m ∧ isAccess m = true ∧ e.blockFirst = true := by
  cases p with
  | idle     =>
    cases hpoll : e.poll with
    | none    => simp only [Phase.next, hpoll, reduceCtorEq] at h
    | some m' =>
      simp only [Phase.next, hpoll] at h
      split_ifs at h with hm hb
      cases h
      exact ⟨rfl, rfl, hm, hb⟩
  | late m'  =>
    simp only [Phase.next] at h
    split_ifs at h
  | early m' => cases h
  | lost m'  => cases h
  | ended    => cases h

theorem next_lost {p : Phase} {e : Edge} {m : Message} (h : p.next e = .lost m) :
    p = .lost m ∨ p = .late m ∧ e.blockFirst = false := by
  cases p with
  | idle     =>
    cases hpoll : e.poll with
    | none    => simp only [Phase.next, hpoll, reduceCtorEq] at h
    | some m' =>
      simp only [Phase.next, hpoll] at h
      split_ifs at h
  | late m'  =>
    simp only [Phase.next] at h
    split_ifs at h with hb
    cases h
    exact .inr ⟨rfl, by simpa using hb⟩
  | early m' => cases h
  | lost m'  => cases h; exact .inl rfl
  | ended    => cases h

theorem foldl_lost (m : Message) : ∀ es : List Edge, es.foldl Phase.next (.lost m) = .lost m
  | []      => rfl
  | _ :: es => foldl_lost m es

theorem after_lost_iff (undef : Undef) (c : Script) (es : List Edge) :
    (∃ m, Phase.after es = .lost m) ↔ Overtaken undef c es := by
  constructor
  · induction es using List.reverseRecOn with
    | nil                      => rintro ⟨m, h⟩; cases h
    | append_singleton es e ih =>
      rintro ⟨m, h⟩
      rw [Phase.after_concat] at h
      rcases next_lost h with h | ⟨h, hb⟩
      · obtain ⟨pre, e₁, e₂, post, rfl, hrest⟩ := ih ⟨m, h⟩
        exact ⟨pre, e₁, e₂, post ++ [e], by simp, hrest⟩
      · rcases List.eq_nil_or_concat' es with rfl | ⟨pre, e₁, rfl⟩
        · cases h
        · rw [Phase.after_concat] at h
          obtain ⟨hidle, hpoll, hm, hb₁⟩ := next_late h
          exact ⟨pre, e₁, e, [], by simp, ((kept_edges undef c pre).polling_iff).2 hidle, ⟨m, hpoll, hm⟩, hb₁, hb⟩
  · rintro ⟨pre, e, e', post, rfl, hpc, ⟨m, hpoll, hm⟩, hb, hb'⟩
    have hidle : pre.foldl Phase.next .idle = .idle := ((kept_edges undef c pre).polling_iff).1 hpc
    have hlate : Phase.next .idle e = .late m := by simp [Phase.next, hpoll, hm, hb]
    have hlost : Phase.next (.late m) e' = .lost m := by simp [Phase.next, hb']
    refine ⟨m, ?_⟩
    rw [Phase.after, List.foldl_append, hidle, List.foldl_cons, List.foldl_cons, hlate, hlost]
    exact foldl_lost m post

structure ServesPolls (undef : Undef) (c : Script) (es : List Edge) (s : Clocked) : Prop where
  /-- What was polled is served as the transaction-level model serves it, up to the one request under way. -/
  order  : ∃ done, s.taken = done ++ s.pc.request ∧ s.script = (served undef ({}, c) done).2 ∧
    (s.pc.request = [] → s.block.toNvmeRegs = (served undef ({}, c) done).1)
  prompt : ∀ m e, s.pc = .requested m → (s.edge undef e).pc = .polling ∨ (s.edge undef e).pc = .awaiting m
  lost   : (∃ m, s.pc = .awaiting m) ↔ Overtaken undef c es
  stuck  : ∀ m es', s.pc = .awaiting m →
    (s.edges undef es').pc = .awaiting m ∧ (s.edges undef es').script = s.script

/-- **The clocked endpoint serves what it polls, in every run and whatever the order of its two processes at each edge;
it loses a request, and hangs, exactly when the register block overtakes the loop.** -/
theorem clocked_endpoint (undef : Undef) (c : Script) (es : List Edge) :
    ServesPolls undef c es (({ script := c } : Clocked).edges undef es) := by
  have h := kept_edges undef c es
  generalize hs : ({ script := c } : Clocked).edges undef es = s at h ⊢
  generalize hp : Phase.after es = p at h
  refine ⟨?_, fun m e hpc => ?_, ?_, fun m es' hpc => ?_⟩
  · obtain ⟨done, htaken, hat⟩ := h
    refine ⟨done, by rw [Kept.request ⟨done, htaken, hat⟩]; exact htaken, ?_, fun hreq => ?_⟩
    · cases p with
      | idle    => exact hat.2.2.2
      | late m  => exact hat.2.2.2.2.2
      | early m => exact hat.2.2.2.2
      | lost m  => exact hat.2.2.2.2
      | ended   => exact hat.2.2.2
    · rw [Kept.request ⟨done, htaken, hat⟩] at hreq
      cases p with
      | idle    => exact hat.2.2.1
      | late m  => cases hreq
      | early m => cases hreq
      | lost m  => cases hreq
      | ended   => exact hat.2.2.1
  · have hreq := h.request
    rw [hpc] at hreq
    cases p with
    | idle     => cases hreq
    | late m'  =>
      cases hreq
      rcases hb : e.blockFirst with _ | _
      · exact .inr (((h.edge e).awaiting_iff m).2 (by simp only [Phase.next, hb, Bool.false_eq_true, if_false]))
      · exact .inl ((h.edge e).polling_iff.2 (by simp only [Phase.next, hb, if_true]))
    | early m' => exact .inl ((h.edge e).polling_iff.2 rfl)
    | lost m'  =>
      have hwait := (h.awaiting_iff m').2 rfl
      rw [hpc] at hwait
      cases hwait
    | ended    => cases hreq
  · rw [← after_lost_iff undef c es, hp]
    exact exists_congr h.awaiting_iff
  · have hlost := (h.awaiting_iff m).1 hpc
    subst hlost
    obtain ⟨done, -, hat⟩ := h
    have hat' := stays_lost es' hat
    exact ⟨hat'.1, hat'.2.2.2.2.trans hat.2.2.2.2.symm⟩

theorem not_overtaken_of_steady (undef : Undef) (c : Script) {es : List Edge} {b : Bool}
    (h : ∀ e ∈ es, e.blockFirst = b) : ¬ Overtaken undef c es := by
  rintro ⟨pre, e, e', post, rfl, -, -, hb, hb'⟩
  have hfirst := h e (by simp)
  have hsecond := h e' (by simp)
  rw [hb, ← hsecond, hb'] at hfirst
  cases hfirst

/-- A read of CSTS at which the order turns: nothing is ever sent. -/
example :
    let m : Message := ⟨makeHeader .mmioReadReq 3 kCstsReg 0 .success 0 0 kFlagNone 4, []⟩
    let s := ({ script := ⟨[], []⟩ } : Clocked).edges (fun _ _ => 0) [⟨true, some m⟩, ⟨false, none⟩, ⟨false, none⟩]
    s.pc = .awaiting m ∧ s.script.log = [] := by
  decide +kernel

end Endpoint
end Vip
