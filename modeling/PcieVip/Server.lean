import PcieVip.LibRun
import PcieVip.Transaction
/-!
# Server — MiniIcsServer as a machine of three threads (`mini-ics/src/server.cpp`)

The I/O thread (`IoThreadMain`), the RTL thread (`PollInbound`, `SendResponse`, `SendRequestToHost`) and the thread that
calls `Stop`, over the state they share.  A step is a stretch of one thread between two accesses to shared state; each
chunk of a send is a step of its own, because `client_socket_` may be closed or replaced between two chunks.  Reading is
one step: only the I/O thread reads, and what the kernel will deliver on a connection is its script, fixed when the
connection is accepted.

Connections are numbered from 1 in the order of their acceptance.  The fields below `-- history` are not in the source:
they record what was read, delivered, polled, written and returned, and on which connection.
-/
namespace Vip
namespace Ics

/-! ## State -/

structure Received where
  conn    : Nat
  message : Message
  deriving DecidableEq, Repr

/-- On whose behalf a byte is written: the handshake, the answer to a request received on `conn`, or the call number
`call` of `SendRequestToHost`. -/
inductive Cause where
  | helloAck
  | response (conn : Nat)
  | request (call : Nat)
  deriving DecidableEq, Repr

structure WireByte where
  conn  : Nat
  cause : Cause
  byte  : UInt8
  deriving DecidableEq, Repr

structure Returned where
  call   : Nat
  answer : Received
  deriving DecidableEq, Repr

inductive IoPc where
  | top
  | accepting
  | hello
  | helloRead (m : Message)
  | acking (m : Message) (left : List UInt8)
  | ready
  | waiting
  | reading
  | dispatching (m : Message)
  | closing (drop : Bool)
  | dropping
  | exited
  deriving DecidableEq, Repr

inductive Sending where
  | response (conn : Nat)
  | request (call : Nat) (txnId : UInt64) (expectResponse : Bool)
  deriving DecidableEq, Repr

def Sending.cause : Sending → Cause
  | .response conn    => .response conn
  | .request call _ _ => .request call

/-- Where the RTL thread stands inside a call of the server. -/
inductive Call where
  | idle
  | registering (call : Nat) (txnId : UInt64) (expectResponse : Bool) (bytes : List UInt8)
  | locking (what : Sending) (bytes : List UInt8)
  | sending (what : Sending) (left : List UInt8)
  | dropping (txnId : UInt64)
  | waiting (call : Nat) (txnId : UInt64)
  deriving DecidableEq, Repr

inductive StopPc where
  | running | exchanged | requested | shutDown | cancelled | joined | stopped
  deriving DecidableEq, Repr

structure State where
  running       : Bool := true
  stopRequested : Bool := false
  hasClient     : Bool := false
  isOpen        : Bool := false
  sendMutex     : Bool := false
  txnGen        : TransactionIdGenerator := {}
  inboundQueue  : BlockingQueue Received := {}
  pending       : PendingRequestTable Received := {}
  io            : IoPc := .top
  held          : Option Received := none
  call          : Call := .idle
  stop          : StopPc := .running
  -- history
  conn          : Nat := 0
  script        : Nat → List RxTurn := fun _ => []
  left          : List RxTurn := []
  dispatched    : List Received := []
  pushed        : List Received := []
  completed     : List Received := []
  polled        : List Received := []
  wire          : List WireByte := []
  calls         : Nat := 0
  returned      : List Returned := []

/-- The state after `Start`. -/
def State.init : State := {}

/-! ## The I/O thread -/

def helloAck (m : Message) : Message :=
  ⟨makeHeader .helloAck m.header.txnId 0 0 .success m.header.simTimestamp 0 kFlagIsResponse, []⟩

def State.record (s : State) (m : Message) : State := { s with dispatched := s.dispatched ++ [⟨s.conn, m⟩] }

def State.push (s : State) (m : Message) : State :=
  { s with inboundQueue := s.inboundQueue.push ⟨s.conn, m⟩, pushed := s.pushed ++ [⟨s.conn, m⟩] }

def State.complete (s : State) (m : Message) : State :=
  { s with pending := (s.pending.complete m.header.txnId ⟨s.conn, m⟩).2, completed := s.completed ++ [⟨s.conn, m⟩] }

/-- The two types routed to `pending_`. -/
def Message.isDmaRsp (m : Message) : Bool := m.header.isType .dmaReadRsp || m.header.isType .dmaWriteRsp

def State.dispatchIncoming (s : State) (m : Message) : State :=
  if m.isDmaRsp then s.complete m else s.push m

def State.write (s : State) (cause : Cause) (bs : List UInt8) : State :=
  { s with wire := s.wire ++ bs.map (fun b => ⟨s.conn, cause, b⟩) }

/-- One iteration of `SendAll` on `client_socket_`; `poll` ignores a closed one. -/
def State.sendTurn (s : State) (left : List UInt8) (t : TxTurn) : SendStep :=
  if s.isOpen then sendStep left t else .stop .timeout

inductive IoEvent where
  | go
  | accept (rx : Option (List RxTurn))
  | send (t : TxTurn)
  | wait (polls : List PollRet)
  deriving DecidableEq, Repr

def ioStep (s : State) (e : IoEvent) : Option State :=
  match s.io, e with
  | .top, .go =>
    some { s with io := if s.running && !s.stopRequested then if s.hasClient then .waiting else .accepting
                        else .exited }
  | .accepting, .accept none => some { s with io := .top }
  | .accepting, .accept (some rx) =>
    some { s with isOpen := true, io := .hello, conn := s.conn + 1, left := rx
                  script := Function.update s.script (s.conn + 1) rx }
  | .hello, .go =>
    let r := readMessage s.left
    match r.message with
    | .error _ => some { s with left := r.rest, io := .closing false }
    | .ok m    => some { s with left := r.rest, io := .helloRead m }
  | .helloRead m, .go =>
    if !m.header.isType .hello then some { s with io := .closing false }
    else if s.sendMutex then none
    else some { s with sendMutex := true, io := .acking m (helloAck m).bytes }
  | .acking _ [], .send _ => some { s with sendMutex := false, io := .ready }
  | .acking m (b :: bs), .send t =>
    match s.sendTurn (b :: bs) t with
    | .wrote w => some { s.write .helloAck w with io := .acking m ((b :: bs).drop w.length) }
    | .stop _  => some { s with sendMutex := false, io := .closing false }
  | .ready, .go => some { s with hasClient := true, io := .top }
  | .waiting, .wait polls =>
    match pollFor polls with
    | .timeout => some { s with io := .top }
    | .ok      => some { s with io := .reading }
    | _        => some { s with io := .closing true }
  | .reading, .go =>
    let r := readMessage s.left
    match r.message with
    | .error _ => some { s with left := r.rest, io := .closing true }
    | .ok m    => some { s with left := r.rest, io := .dispatching m }
  | .dispatching m, .go =>
    if m.header.isType .shutdown then some { (s.record m).push m with io := .closing true }
    else some { (s.record m).dispatchIncoming m with io := .top }
  | .closing drop, .go => some { s with isOpen := false, io := if drop then .dropping else .top }
  | .dropping, .go => some { s with hasClient := false, io := .top }
  | _, _ => none

/-! ## The RTL thread -/

structure Request where
  type           : MessageType
  address        : UInt64
  byteEnable     : UInt64
  payload        : List UInt8
  transferLen    : UInt32
  simTimestamp   : UInt64
  expectResponse : Bool
  deriving DecidableEq, Repr

def Request.message (r : Request) (txnId : UInt64) : Message :=
  ⟨makeHeader r.type txnId r.address r.byteEnable .success r.simTimestamp (UInt32.ofNat r.payload.length) kFlagNone
    r.transferLen, r.payload⟩

inductive RtlEvent where
  | poll
  | finish
  | respond (h : Header) (payload : List UInt8)
  | request (r : Request)
  | go
  | send (t : TxTurn)
  deriving DecidableEq, Repr

/-- What follows `SendAll`, once `send_mutex_` is released. -/
def Sending.after : Sending → IoStatus → Call
  | .response _, _                     => .idle
  | .request call txnId true, .ok      => .waiting call txnId
  | .request _ txnId true, _           => .dropping txnId
  | .request _ _ false, _              => .idle

def rtlStep (s : State) (e : RtlEvent) : Option State :=
  match s.call, e with
  | .idle, .poll =>
    match s.held, s.inboundQueue.pop with
    | none, (some q, queue) => some { s with inboundQueue := queue, held := some q, polled := s.polled ++ [q] }
    | none, (none, _)       => some s
    | some _, _             => none
  -- the end of an iteration of the RTL side's loop
  | .idle, .finish => some { s with held := none }
  | .idle, .respond h payload =>
    match s.held with
    | none   => none
    | some q =>
      if s.hasClient then some { s with call := .locking (.response q.conn) (serializeMessage h payload) } else some s
  | .idle, .request r =>
    if s.hasClient then
      let (txnId, txnGen) := s.txnGen.next
      some { s with txnGen, calls := s.calls + 1
                    call := .registering s.calls txnId r.expectResponse (r.message txnId).bytes }
    else some s
  | .registering call txnId expectResponse bytes, .go =>
    some { s with pending := if expectResponse then s.pending.registerPending txnId else s.pending
                  call := .locking (.request call txnId expectResponse) bytes }
  | .locking what bytes, .go =>
    if s.sendMutex then none else some { s with sendMutex := true, call := .sending what bytes }
  | .sending what [], .send _ => some { s with sendMutex := false, call := what.after .ok }
  | .sending what (b :: bs), .send t =>
    match s.sendTurn (b :: bs) t with
    | .wrote w => some { s.write what.cause w with call := .sending what ((b :: bs).drop w.length) }
    | .stop st => some { s with sendMutex := false, call := what.after st }
  | .dropping txnId, .go => some { s with pending := (s.pending.waitFor txnId).2, call := .idle }
  | .waiting call txnId, .go =>
    match s.pending.waitFor txnId with
    | (some q, pending) => some { s with pending, call := .idle, returned := s.returned ++ [⟨call, q⟩] }
    | (none, pending)   => some { s with pending, call := .idle }
  | _, _ => none

/-! ## Stop -/

def stopStep (s : State) : Option State :=
  match s.stop with
  | .running   => some { s with running := false, stop := .exchanged }
  | .exchanged => some { s with stopRequested := true, stop := .requested }
  | .requested => some { s with inboundQueue := s.inboundQueue.shutDown, stop := .shutDown }
  | .shutDown  => some { s with pending := s.pending.cancelAll, stop := .cancelled }
  -- joining the I/O thread
  | .cancelled => if s.io = .exited then some { s with stop := .joined } else none
  | .joined    => some { s with isOpen := false, stop := .stopped }
  | .stopped   => none

inductive Event where
  | io (e : IoEvent)
  | rtl (e : RtlEvent)
  | stop
  deriving DecidableEq, Repr

def step (s : State) : Event → Option State
  | .io e  => ioStep s e
  | .rtl e => rtlStep s e
  | .stop  => stopStep s

end Ics
end Vip
