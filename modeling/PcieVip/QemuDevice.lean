import PcieVip.LibRun
import PcieVip.QemuSocket
/-!
# QemuDevice — the pending slot of the device model (`hw/misc/pcie-vip.c` of the QEMU patch)

The callers of `pcie_vip_rpc` and the reader thread over `PcieVipState`.  A step is one region under `state_lock`, or
one stretch outside it; a wait on `response_cond` ends in a step that may be a wake-up or the timeout.  Any number of
calls may be under way.  The reader takes a message off the socket in one step and files it in another, so that calls
may come and go in between; what the backend sends is arbitrary.

The fields below `-- history` are not in the source: which message was filed for which call, what each call wrote, and
whether the device was already disconnected when a call began.
-/
namespace Vip
namespace Qemu

/-! ## Messages -/

inductive MicsType where
  | hello | helloAck | mmioReadReq | mmioReadRsp | mmioWriteReq | mmioWriteRsp | dmaReadReq | dmaReadRsp
  | dmaWriteReq | dmaWriteRsp | msix | resetReq | resetRsp | error | shutdown
  deriving DecidableEq, Repr

def MicsType.code : MicsType → UInt16
  | .hello        => 1
  | .helloAck     => 2
  | .mmioReadReq  => 3
  | .mmioReadRsp  => 4
  | .mmioWriteReq => 5
  | .mmioWriteRsp => 6
  | .dmaReadReq   => 7
  | .dmaReadRsp   => 8
  | .dmaWriteReq  => 9
  | .dmaWriteRsp  => 10
  | .msix         => 11
  | .resetReq     => 12
  | .resetRsp     => 13
  | .error        => 14
  | .shutdown     => 15

def micsStatusSuccess : UInt32 := 0

/-- `memset(msg, 0, sizeof(*msg))`. -/
def MicsMessage.zero : MicsMessage := ⟨⟨0, 0, 0, 0, 0, 0, 0, 0, 0⟩, []⟩

def MicsMessage.isResponse (m : MicsMessage) : Bool := m.h.flags &&& micsFlagResponse != 0

def MicsMessage.isWork (m : MicsMessage) : Bool :=
  m.h.type == MicsType.dmaReadReq.code || m.h.type == MicsType.dmaWriteReq.code || m.h.type == MicsType.msix.code

/-! ## Requests -/

/-- What the three callers of `pcie_vip_rpc` ask for. -/
inductive RpcRequest where
  | read (addr : UInt64) (size : UInt32)
  | write (addr value : UInt64) (size : UInt32)
  | reset
  deriving DecidableEq, Repr

def byteEnables (addr : UInt64) (size : UInt32) : UInt64 :=
  (((1 : UInt64) <<< size.toUInt64) - 1) <<< (addr &&& 7)

def RpcRequest.header (r : RpcRequest) (txnId now : UInt64) : MicsHeader :=
  match r with
  | .read addr size    => ⟨MicsType.mmioReadReq.code, 0, 0, txnId, now, addr, byteEnables addr size, 0, size⟩
  | .write addr _ size => ⟨MicsType.mmioWriteReq.code, 0, size, txnId, now, addr, byteEnables addr size, 0, size⟩
  | .reset             => ⟨MicsType.resetReq.code, 0, 0, txnId, now, 0, 0, 0, 0⟩

def RpcRequest.payload : RpcRequest → List UInt8
  | .read _ _          => []
  | .write _ value size => (List.range size.toNat).map (fun i => (value >>> (8 * UInt64.ofNat i)).toUInt8)
  | .reset             => []

def RpcRequest.expected : RpcRequest → MicsType
  | .read _ _    => .mmioReadRsp
  | .write _ _ _ => .mmioWriteRsp
  | .reset       => .resetRsp

def mmioReadValue (size : UInt32) (r : Option MicsMessage) : UInt64 :=
  match r with
  | some m =>
    if m.h.payloadLen = size then
      (List.range size.toNat).foldl (fun v i => v ||| ((m.payload.getD i 0).toUInt64 <<< (8 * UInt64.ofNat i))) 0
    else 0xffffffffffffffff
  | none   => 0xffffffffffffffff

/-! ## State -/

/-- Where a call of `pcie_vip_rpc` stands. -/
inductive RpcPc where
  | start
  | checking
  | writing
  | waiting
  | failing
  | returned (r : Option MicsMessage)
  deriving DecidableEq, Repr

/-- Between the two lock regions that take and release the slot. -/
def RpcPc.owns : RpcPc → Bool
  | .start      => false
  | .returned _ => false
  | _           => true

structure RpcCall where
  request : RpcRequest
  header  : MicsHeader
  pc      : RpcPc := .start
  deriving DecidableEq, Repr

inductive ReaderPc where
  | receiving
  | holding (m : MicsMessage)
  | exited
  deriving DecidableEq, Repr

/-- A message filed in the slot, and the call that owned it. -/
structure Delivery where
  owner   : Option Nat
  message : MicsMessage
  deriving DecidableEq, Repr

structure Device where
  connected       : Bool := true
  nextTxnId       : UInt64 := 2
  pendingActive   : Bool := false
  pendingDone     : Bool := false
  pendingTxnId    : UInt64 := 0
  pendingResponse : MicsMessage := MicsMessage.zero
  workQueue       : List MicsMessage := []
  reader          : ReaderPc := .receiving
  calls           : List RpcCall := []
  -- history
  deliveries      : List Delivery := []
  sent            : List (Nat × List UInt8) := []
  deriving DecidableEq, Repr

/-- After `pcie_vip_realize`: the handshake has used the transaction identifier 1. -/
def Device.init : Device := {}

def Device.owner (s : Device) : Option Nat := s.calls.findIdx? (·.pc.owns)

def Device.setPc (s : Device) (i : Nat) (c : RpcCall) (pc : RpcPc) : Device :=
  { s with calls := s.calls.set i { c with pc } }

/-! ## pcie_vip_rpc -/

inductive RpcEvent where
  /-- The first region. -/
  | lock
  /-- The test of `connected` in `mics_send`. -/
  | check
  /-- The rest of `mics_send`. -/
  | write (tx : List MicsTurn)
  /-- The region after a send: the wait is over, by a timeout or not. -/
  | finish (timedOut : Bool)
  /-- The region at `out`. -/
  | fail
  deriving DecidableEq, Repr

/-- The slot as the first region leaves it. -/
def Device.take (s : Device) (txnId : UInt64) : Device :=
  { s with pendingActive := true, pendingDone := false, pendingTxnId := txnId, pendingResponse := MicsMessage.zero }

def Device.release (s : Device) : Device := { s with pendingActive := false, pendingDone := false }

def Device.answers (s : Device) (c : RpcCall) : Bool :=
  s.pendingDone && s.pendingResponse.h.type == c.request.expected.code &&
    s.pendingResponse.h.status == micsStatusSuccess

/-- The region after the wait. -/
def Device.conclude (s : Device) (i : Nat) (c : RpcCall) : Device :=
  if s.answers c then
    { s.release with pendingResponse := MicsMessage.zero }.setPc i c (.returned (some s.pendingResponse))
  else s.release.setPc i c (.returned none)

def rpcStep (s : Device) (i : Nat) (c : RpcCall) (e : RpcEvent) : Option Device :=
  match c.pc, e with
  | .start, .lock =>
    if !s.connected || s.pendingActive then some (s.setPc i c (.returned none))
    else some ((s.take c.header.txnId).setPc i c .checking)
  | .checking, .check => some (s.setPc i c (if s.connected then .writing else .failing))
  | .writing, .write tx =>
    let r := micsSend true c.header c.request.payload tx
    some { s.setPc i c (if r.ok then .waiting else .failing) with sent := s.sent ++ [(i, r.wrote)] }
  | .waiting, .finish timedOut =>
    -- while (connected && !pending_done) timedwait
    if s.connected && !s.pendingDone && !timedOut then none else some (s.conclude i c)
  | .failing, .fail => some (s.release.setPc i c (.returned none))
  | _, _ => none

/-- A new call; `pcie_vip_reset` makes none when the device is disconnected. -/
def Device.begin (s : Device) (r : RpcRequest) (now : UInt64) : Device :=
  if r = .reset ∧ s.connected = false then s
  else
    { s with nextTxnId := s.nextTxnId + 1
             calls := s.calls ++ [{ request := r, header := r.header s.nextTxnId now }] }

/-! ## pcie_vip_reader -/

/-- The reader's regions: under `state_lock` for a response, under `work_lock` for a request. -/
def Device.file (s : Device) (m : MicsMessage) : Device :=
  if m.isResponse then
    if s.pendingActive && m.h.txnId == s.pendingTxnId then
      { s with pendingResponse := m, pendingDone := true, deliveries := s.deliveries ++ [⟨s.owner, m⟩] }
    else s
  else if m.isWork then { s with workQueue := s.workQueue ++ [m] }
  else s

inductive DeviceEvent where
  /-- A caller takes a transaction identifier, builds its header and calls. -/
  | begin (r : RpcRequest) (now : UInt64)
  | rpc (i : Nat) (e : RpcEvent)
  | recv (m : MicsMessage)
  | file
  | readerExit
  deriving DecidableEq, Repr

def deviceStep (s : Device) (e : DeviceEvent) : Option Device :=
  match e with
  | .begin r now => some (s.begin r now)
  | .rpc i e     =>
    match s.calls[i]? with
    | none   => none
    | some c => rpcStep s i c e
  | .recv m      => if s.reader = .receiving then some { s with reader := .holding m } else none
  | .file        =>
    match s.reader with
    | .holding m => some { s.file m with reader := .receiving }
    | _          => none
  | .readerExit  => if s.reader = .receiving then some { s with connected := false, reader := .exited } else none

end Qemu
end Vip
