import PcieVip.BridgeWire
import PcieVip.LibLog
import PcieVip.LibRun
import Mathlib.Data.Int.Bitwise
/-!
# BridgeServe — the cocotb bridge over one connection (`rtl/alex/mini_ics_tlp_bridge.py`)

`MiniIcsTlpBridge` after its handshake: the task in `serve` and any number of calls of `request`.  asyncio runs one task
at a time and changes tasks at an `await` only, so a step is what a task does between two of them; `writer.write` takes
the whole message at once.  When a task gets on is arbitrary, and so are the callbacks' results, the bytes that come in,
and which of a response and a timeout a waiting call sees first.

The fields below `-- history` are not in the source: what was received and written so far, and for a call how much had
been received when it registered.
-/
namespace Vip
namespace Bridge

open Ics (MessageType)
open Log Run

/-! ## Messages -/

/-- The constants `HELLO` to `SHUTDOWN`. -/
def code (t : MessageType) : Int := t.code.toNat

def response : Int := 1

structure Msg where
  header  : Header
  payload : List UInt8
  deriving DecidableEq, Repr

structure Frame where
  raw     : List UInt8
  payload : List UInt8
  deriving DecidableEq, Repr

def Msg.isResponse (m : Msg) : Bool := Int.land m.header.flags response != 0

def Msg.isType (m : Msg) (t : MessageType) : Bool := m.header.msgType == code t

def sendMessage (h : Header) (payload : List UInt8) : Except PyError Frame :=
  if (payload.length : Int) ≠ h.payloadLen then .error (.valueError "payload length/header mismatch")
  else
    match h.pack with
    | .ok raw  => .ok ⟨raw, payload⟩
    | .error e => .error e

/-- The response is one to the request with this identifier. -/
def Msg.answers (m : Msg) (txn : Int) : Bool := m.isResponse && m.header.txnId == txn

/-! ## State -/

/-- The future that a call waits for; what it holds is the number of a received message. -/
inductive Future where
  | pending
  | done (k : Nat)
  | cancelled
  deriving DecidableEq, Repr

inductive CallPc where
  | draining
  | waiting
  | returned (k : Nat)
  | timedOut
  | raised
  deriving DecidableEq, Repr

structure Args where
  msgType     : Int
  address     : Int
  payload     : List UInt8 := []
  transferLen : Int := 0
  deriving DecidableEq, Repr

structure Call where
  args   : Args
  txn    : Int
  future : Future := .pending
  pc     : CallPc
  -- history
  since  : Nat
  deriving DecidableEq, Repr

inductive ServePc where
  | receiving
  /-- In a callback, for the message with this number. -/
  | calling (k : Nat) (m : Msg)
  | draining
  | returned
  | raised
  deriving DecidableEq, Repr

inductive Source where
  | answer (k : Nat)
  | request (i : Nat)
  | bare
  deriving DecidableEq, Repr

structure Write where
  source : Source
  frame  : Frame
  deriving DecidableEq, Repr

structure State where
  pending  : Int → Option Nat := fun _ => none
  nextTxn  : Int := 1
  calls    : List Call := []
  serve    : ServePc := .receiving
  -- history
  received : List Msg := []
  written  : List Write := []

/-! ## request -/

def Args.header (a : Args) (txn : Int) : Header :=
  { msgType := a.msgType, payloadLen := a.payload.length, txnId := txn, address := a.address
    transferLen := pyOr a.transferLen a.payload.length }

/-- Up to the first `await`: the call is registered, and its message is with the writer unless `pack` raises. -/
def State.request (s : State) (a : Args) : State :=
  let call (pc : CallPc) : Call := { args := a, txn := s.nextTxn, pc, since := s.received.length }
  let pending := fun t => if t = s.nextTxn then some s.calls.length else s.pending t
  match sendMessage (a.header s.nextTxn) a.payload with
  | .ok f    => { s with nextTxn := s.nextTxn + 1, pending, calls := s.calls ++ [call .draining]
                         written := s.written ++ [⟨.request s.calls.length, f⟩] }
  | .error _ => { s with nextTxn := s.nextTxn + 1, pending, calls := s.calls ++ [call .raised] }

inductive CallEvent where
  /-- `drain` returns, or raises. -/
  | drained (ok : Bool)
  /-- The task wakes with the result of its future. -/
  | resume
  | timeout
  deriving DecidableEq, Repr

/-- `wait_for` cancels a future that is not done. -/
def Future.cancel : Future → Future
  | .pending => .cancelled
  | f        => f

def callStep (c : Call) : CallEvent → Option Call
  | .drained ok => if c.pc = .draining then some { c with pc := if ok then .waiting else .raised } else none
  | .resume     =>
    match c.pc, c.future with
    | .waiting, .done k => some { c with pc := .returned k }
    | _, _              => none
  | .timeout    => if c.pc = .waiting then some { c with pc := .timedOut, future := c.future.cancel } else none

/-! ## serve -/

def Msg.answerType (m : Msg) : Option MessageType :=
  if m.isResponse then none
  else if m.isType .mmioReadReq then some .mmioReadRsp
  else if m.isType .mmioWriteReq then some .mmioWriteRsp
  else if m.isType .dmaReadReq then some .dmaReadRsp
  else if m.isType .dmaWriteReq then some .dmaWriteRsp
  else if m.isType .resetReq then some .resetRsp
  else none

def readAnswer (m : Msg) (t : MessageType) (data : List UInt8) : Header :=
  { msgType := code t, flags := response, payloadLen := data.length, txnId := m.header.txnId
    address := m.header.address, transferLen := data.length }

def writeAnswer (m : Msg) (t : MessageType) (status : Int) : Header :=
  { msgType := code t, flags := response, txnId := m.header.txnId, address := m.header.address, status
    transferLen := m.header.transferLen }

def resetAnswer (m : Msg) : Header := { msgType := code .resetRsp, flags := response, txnId := m.header.txnId }

/-- `send_message`, by the task in `serve`. -/
def State.send (s : State) (k : Nat) (h : Header) (payload : List UInt8) : State :=
  match sendMessage h payload with
  | .ok f    => { s with serve := .draining, written := s.written ++ [⟨.answer k, f⟩] }
  | .error _ => { s with serve := .raised }

/-- `waiter.set_result`, for the call that a response pops from the table. -/
def Call.settle (k : Nat) (c : Call) : Call := if c.future = .pending then { c with future := .done k } else c

/-- From `recv_message` to the next `await`; `msixCb` is whether there is a callback for interrupts. -/
def State.receive (s : State) (msixCb : Bool) (m : Msg) : State :=
  let k := s.received.length
  let s := { s with received := s.received ++ [m] }
  if m.isResponse then
    match s.pending m.header.txnId with
    | none   => s
    | some i => { s with pending := fun t => if t = m.header.txnId then none else s.pending t
                         calls := s.calls.modify i (Call.settle k) }
  else if m.isType .mmioReadReq || m.isType .mmioWriteReq || m.isType .dmaReadReq || m.isType .dmaWriteReq then
    { s with serve := .calling k m }
  else if m.isType .msiX then { s with serve := if msixCb then .calling k m else .receiving }
  else if m.isType .resetReq then s.send k (resetAnswer m) []
  else if m.isType .shutdown then { s with serve := .returned }
  else s

def State.callback (s : State) (k : Nat) (m : Msg) (data : List UInt8) (status : Int) : State :=
  if m.isType .mmioReadReq then s.send k (readAnswer m .mmioReadRsp data) data
  else if m.isType .mmioWriteReq then s.send k (writeAnswer m .mmioWriteRsp status) []
  else if m.isType .dmaReadReq then s.send k (readAnswer m .dmaReadRsp data) data
  else if m.isType .dmaWriteReq then s.send k (writeAnswer m .dmaWriteRsp status) []
  else { s with serve := .receiving }

/-! ## The bridge -/

inductive Event where
  | request (a : Args)
  | call (i : Nat) (e : CallEvent)
  | recv (f : Frame)
  | eof
  /-- A callback returns; `data` or `status` is its result. -/
  | callback (data : List UInt8) (status : Int)
  | callbackRaises
  | drained (ok : Bool)
  /-- Another task writes to the connection. -/
  | write (f : Frame)
  deriving DecidableEq, Repr

def step (msixCb : Bool) (s : State) (e : Event) : Option State :=
  match e with
  | .request a            => some (s.request a)
  | .call i e             =>
    match s.calls[i]? with
    | none   => none
    | some c => (callStep c e).map (fun c => { s with calls := s.calls.set i c })
  | .recv f               =>
    if s.serve ≠ .receiving ∨ f.raw.length ≠ headerSize then none
    else
      match Header.unpack f.raw with
      | .error _ => some { s with serve := .raised }
      | .ok h    => if (f.payload.length : Int) = h.payloadLen then some (s.receive msixCb ⟨h, f.payload⟩) else none
  | .eof                  => if s.serve = .receiving then some { s with serve := .raised } else none
  | .callback data status =>
    match s.serve with
    | .calling k m => some (s.callback k m data status)
    | _            => none
  | .callbackRaises       =>
    match s.serve with
    | .calling _ _ => some { s with serve := .raised }
    | _            => none
  | .drained ok           =>
    if s.serve = .draining then some { s with serve := if ok then .receiving else .raised } else none
  | .write f              => some { s with written := s.written ++ [⟨.bare, f⟩] }

/-! ## Correlation -/

def Call.first (c : Call) (received : List Msg) : Option Nat := firstFrom (·.answers c.txn) received c.since

/-- What a call holds is the first response to it, and it holds that one unless it gave up. -/
structure Call.Tracks (c : Call) (received : List Msg) : Prop where
  since    : c.since ≤ received.length
  pending  : c.future = .pending → c.first received = none
  done     : ∀ k, c.future = .done k → c.first received = some k
  live     : c.future = .cancelled → c.pc = .timedOut
  returned : ∀ k, c.pc = .returned k → c.future = .done k

/-- The calls are numbered, and the table has those that no response came for. -/
structure Matched (s : State) : Prop where
  next  : s.nextTxn = s.calls.length + 1
  txn   : ∀ (i : Nat) (c : Call), s.calls[i]? = some c → c.txn = i + 1
  calls : ∀ (i : Nat) (c : Call), s.calls[i]? = some c → c.Tracks s.received
  table : ∀ (t : Int) (i : Nat), s.pending t = some i ↔
    ∃ c, s.calls[i]? = some c ∧ c.txn = t ∧ c.first s.received = none

theorem Call.first_concat {c : Call} {received : List Msg} (m : Msg) (h : c.since ≤ received.length) :
    c.first (received ++ [m]) = (c.first received).or (if m.answers c.txn then some received.length else none) :=
  firstFrom_concat m h

theorem Call.first_concat_of_not {c : Call} {received : List Msg} {m : Msg} (h : c.since ≤ received.length)
    (hm : m.answers c.txn = false) : c.first (received ++ [m]) = c.first received := by
  rw [Call.first_concat m h, hm]
  exact Option.or_none

theorem Call.first_concat_of_some {c : Call} {received : List Msg} {k : Nat} (m : Msg) (h : c.since ≤ received.length)
    (hk : c.first received = some k) : c.first (received ++ [m]) = some k := by
  rw [Call.first_concat m h, hk]
  rfl

theorem Call.Tracks.concat {c : Call} {received : List Msg} (h : c.Tracks received) {m : Msg}
    (hm : c.first (received ++ [m]) = c.first received) : c.Tracks (received ++ [m]) := by
  refine ⟨?_, fun hp => by rw [hm, h.pending hp], fun k hk => by rw [hm, h.done k hk], h.live, h.returned⟩
  have := h.since
  rw [List.length_append]
  omega

theorem Call.Tracks.settle {c : Call} {received : List Msg} (h : c.Tracks received) {m : Msg}
    (hm : c.first (received ++ [m]) = some received.length) :
    (c.settle received.length).Tracks (received ++ [m]) := by
  have hsince := h.since
  unfold Call.settle
  split
  · rename_i hp
    refine ⟨by rw [List.length_append]; exact Nat.le_add_right_of_le hsince, ?_, ?_, ?_, ?_⟩
    · intro hk
      cases hk
    · rintro k ⟨⟩
      exact hm
    · intro hk
      cases hk
    · intro k hk
      rw [h.returned k hk] at hp
      cases hp
  · rename_i hp
    refine ⟨by rw [List.length_append]; exact Nat.le_add_right_of_le hsince, fun h' => absurd h' hp, ?_, h.live,
      h.returned⟩
    intro k hk
    exact Call.first_concat_of_some m hsince (h.done k hk)

theorem Call.settle_txn (c : Call) (k : Nat) : (c.settle k).txn = c.txn ∧ (c.settle k).since = c.since := by
  unfold Call.settle
  split <;> exact ⟨rfl, rfl⟩

theorem matched_init : Matched {} where
  next  := rfl
  txn   := fun _ _ h => by cases h
  calls := fun _ _ h => by cases h
  table := fun t i => by
    constructor
    · intro h
      cases h
    · rintro ⟨_, h, -⟩
      cases h

theorem Matched.request {s : State} (h : Matched s) (a : Args) : Matched (s.request a) := by
  -- a call that raises at once is registered like any other
  suffices hcall : ∀ (c : Call) (written : List Write), c.txn = s.nextTxn → c.since = s.received.length →
      c.future = .pending → (∀ k, c.pc ≠ .returned k) →
      Matched { s with nextTxn := s.nextTxn + 1, calls := s.calls ++ [c], written
                       pending := fun t => if t = s.nextTxn then some s.calls.length else s.pending t } by
    unfold State.request
    dsimp only
    split
    · exact hcall _ _ rfl rfl rfl (fun _ h => by cases h)
    · exact hcall _ _ rfl rfl rfl (fun _ h => by cases h)
  intro c written htxn hsince hfut hpc
  have hnone : c.first s.received = none := by
    rw [Call.first, hsince]
    exact firstFrom_end _
  have hnext := h.next
  refine ⟨?_, ?_, ?_, ?_⟩
  · simp only [List.length_append, List.length_singleton]
    omega
  · intro i d hd
    rcases snoc_getElem? hd with hd | ⟨rfl, rfl⟩
    · exact h.txn i d hd
    · rw [htxn, hnext]
  · intro i d hd
    rcases snoc_getElem? hd with hd | ⟨rfl, rfl⟩
    · exact h.calls i d hd
    · exact ⟨Nat.le_of_eq hsince, fun _ => hnone, fun k hk => (by rw [hfut] at hk; cases hk),
        fun hk => (by rw [hfut] at hk; cases hk), fun k hk => absurd hk (hpc k)⟩
  · intro t i
    dsimp only
    split
    · rename_i ht
      subst ht
      constructor
      · rintro ⟨⟩
        exact ⟨c, List.getElem?_concat_length, htxn, hnone⟩
      · rintro ⟨d, hd, hdt, -⟩
        rcases snoc_getElem? hd with hd | ⟨rfl, -⟩
        · have hlt := (List.getElem?_eq_some_iff.1 hd).1
          have := h.txn i d hd
          omega
        · rfl
    · rename_i ht
      rw [h.table]
      constructor
      · rintro ⟨d, hd, hrest⟩
        exact ⟨d, List.getElem?_append_left (List.getElem?_eq_some_iff.1 hd).1 ▸ hd, hrest⟩
      · rintro ⟨d, hd, hdt, hrest⟩
        rcases snoc_getElem? hd with hd | ⟨-, rfl⟩
        · exact ⟨d, hd, hdt, hrest⟩
        · exact absurd (hdt.symm.trans htxn) ht

theorem callStep_tracks {c c' : Call} {e : CallEvent} {received : List Msg} (h : c.Tracks received)
    (he : callStep c e = some c') : c'.Tracks received ∧ c'.txn = c.txn ∧ c'.since = c.since := by
  unfold callStep at he
  split at he
  · split at he
    · cases he
      refine ⟨⟨h.since, h.pending, h.done, fun hc => ?_, fun k hk => ?_⟩, rfl, rfl⟩
      · rename_i hpc
        have := h.live hc
        rw [hpc] at this
        cases this
      · dsimp only at hk
        split at hk <;> cases hk
    · cases he
  · split at he
    · rename_i k hpc hfut
      cases he
      refine ⟨⟨h.since, h.pending, h.done, fun hc => ?_, fun k hk => ?_⟩, rfl, rfl⟩
      · rw [hfut] at hc
        cases hc
      · cases hk
        exact hfut
    · cases he
  · split at he
    · cases he
      refine ⟨⟨h.since, fun hp => ?_, fun k hk => ?_, fun _ => rfl, fun _ hk => by cases hk⟩, rfl, rfl⟩
      · cases hf : c.future with
        | pending   => rw [hf] at hp; cases hp
        | done k    => rw [hf] at hp; cases hp
        | cancelled => rw [hf] at hp; cases hp
      · cases hf : c.future with
        | pending   => rw [hf] at hk; cases hk
        | done k'   => rw [hf] at hk; exact h.done k (hf.trans hk)
        | cancelled => rw [hf] at hk; cases hk
    · cases he

theorem Matched.call {s : State} (h : Matched s) {i : Nat} {c c' : Call} {e : CallEvent} (hc : s.calls[i]? = some c)
    (he : callStep c e = some c') : Matched { s with calls := s.calls.set i c' } := by
  obtain ⟨htracks, htxn, hsince⟩ := callStep_tracks (h.calls i c hc) he
  have hfirst : c'.first s.received = c.first s.received := by rw [Call.first, Call.first, htxn, hsince]
  refine ⟨by simpa using h.next, ?_, ?_, ?_⟩
  · intro j d hd
    rcases (set_getElem? hc j d).1 hd with ⟨rfl, rfl⟩ | ⟨-, hd⟩
    · rw [htxn]
      exact h.txn j c hc
    · exact h.txn j d hd
  · intro j d hd
    rcases (set_getElem? hc j d).1 hd with ⟨rfl, rfl⟩ | ⟨-, hd⟩
    · exact htracks
    · exact h.calls j d hd
  · intro t j
    rw [h.table]
    constructor
    · rintro ⟨d, hd, hdt, hnone⟩
      by_cases hj : j = i
      · subst hj
        cases hd.symm.trans hc
        exact ⟨c', (set_getElem? hc j c').2 (.inl ⟨rfl, rfl⟩), htxn.trans hdt, hfirst.trans hnone⟩
      · exact ⟨d, (set_getElem? hc j d).2 (.inr ⟨hj, hd⟩), hdt, hnone⟩
    · rintro ⟨d, hd, hdt, hnone⟩
      rcases (set_getElem? hc j d).1 hd with ⟨rfl, rfl⟩ | ⟨-, hd⟩
      · exact ⟨c, hc, htxn.symm.trans hdt, hfirst.symm.trans hnone⟩
      · exact ⟨d, hd, hdt, hnone⟩

theorem Matched.frame {s : State} (h : Matched s) (serve : ServePc) (written : List Write) :
    Matched { s with serve, written } :=
  ⟨h.next, h.txn, h.calls, h.table⟩

theorem Matched.pass {s : State} (h : Matched s) {m : Msg} (hm : ∀ (i : Nat) (c : Call), s.calls[i]? = some c →
    c.first (s.received ++ [m]) = c.first s.received) : Matched { s with received := s.received ++ [m] } := by
  refine ⟨h.next, h.txn, fun i c hc => (h.calls i c hc).concat (hm i c hc), fun t i => ?_⟩
  rw [h.table]
  constructor
  · rintro ⟨c, hc, ht, hnone⟩
    exact ⟨c, hc, ht, (hm i c hc).trans hnone⟩
  · rintro ⟨c, hc, ht, hnone⟩
    exact ⟨c, hc, ht, (hm i c hc).symm.trans hnone⟩

theorem Matched.same {s : State} (h : Matched s) {i j : Nat} {c d : Call} (hc : s.calls[i]? = some c)
    (hd : s.calls[j]? = some d) (ht : c.txn = d.txn) : i = j := by
  have hi := h.txn i c hc
  have hj := h.txn j d hd
  omega

theorem Matched.settle {s : State} (h : Matched s) {m : Msg} {i : Nat} (hm : m.isResponse = true)
    (hi : s.pending m.header.txnId = some i) :
    Matched { s with received := s.received ++ [m]
                     pending := fun t => if t = m.header.txnId then none else s.pending t
                     calls := s.calls.modify i (Call.settle s.received.length) } := by
  obtain ⟨c, hc, hct, hnone⟩ := (h.table m.header.txnId i).1 hi
  have hans : m.answers c.txn = true := by simp [Msg.answers, hm, hct]
  have hfirst : c.first (s.received ++ [m]) = some s.received.length := by
    rw [Call.first_concat m (h.calls i c hc).since, hnone, hans]
    rfl
  have hother : ∀ (j : Nat) (d : Call), s.calls[j]? = some d → j ≠ i →
      d.first (s.received ++ [m]) = d.first s.received := by
    intro j d hd hj
    refine Call.first_concat_of_not (h.calls j d hd).since (Bool.eq_false_iff.2 (fun hdm => hj ?_))
    simp only [Msg.answers, hm, Bool.true_and, beq_iff_eq] at hdm
    exact h.same hd hc (hdm.symm.trans hct.symm)
  obtain ⟨htxn, hsince⟩ := c.settle_txn s.received.length
  have hset : s.calls.modify i (Call.settle s.received.length) = s.calls.set i (c.settle s.received.length) := by
    rw [List.modify_eq_set_getElem?, hc]
    rfl
  rw [hset]
  refine ⟨by simpa using h.next, ?_, ?_, ?_⟩
  · intro j d hd
    rcases (set_getElem? hc j d).1 hd with ⟨rfl, rfl⟩ | ⟨-, hd⟩
    · rw [htxn]
      exact h.txn j c hc
    · exact h.txn j d hd
  · intro j d hd
    rcases (set_getElem? hc j d).1 hd with ⟨rfl, rfl⟩ | ⟨hj, hd⟩
    · exact (h.calls j c hc).settle hfirst
    · exact (h.calls j d hd).concat (hother j d hd hj)
  · intro t j
    dsimp only
    constructor
    · intro hj
      split at hj
      · cases hj
      · rename_i ht
        obtain ⟨d, hd, hdt, hdn⟩ := (h.table t j).1 hj
        have hji : j ≠ i := by
          rintro rfl
          cases hd.symm.trans hc
          exact ht (hdt.symm.trans hct)
        exact ⟨d, (set_getElem? hc j d).2 (.inr ⟨hji, hd⟩), hdt, (hother j d hd hji).trans hdn⟩
    · rintro ⟨d, hd, hdt, hdn⟩
      rcases (set_getElem? hc j d).1 hd with ⟨-, rfl⟩ | ⟨hj, hd⟩
      · rw [Call.first, htxn, hsince] at hdn
        exact absurd (hfirst.symm.trans hdn) (Option.some_ne_none _)
      · rw [if_neg (fun ht => hj (h.same hd hc (hdt.trans (ht.trans hct.symm))))]
        exact (h.table t j).2 ⟨d, hd, hdt, (hother j d hd hj).symm.trans hdn⟩

theorem Matched.send {s : State} (h : Matched s) (k : Nat) (hdr : Header) (payload : List UInt8) :
    Matched (s.send k hdr payload) := by
  unfold State.send
  split <;> exact h.frame _ _

theorem Matched.receive {s : State} (h : Matched s) (msixCb : Bool) (m : Msg) : Matched (s.receive msixCb m) := by
  unfold State.receive
  dsimp only
  split
  · rename_i hm
    split
    · rename_i hnone
      refine h.pass (fun i c hc => ?_)
      cases hans : m.answers c.txn with
      | false => exact Call.first_concat_of_not (h.calls i c hc).since hans
      | true  =>
        -- the call's entry is gone, so it has its response
        simp only [Msg.answers, hm, Bool.true_and, beq_iff_eq] at hans
        cases hf : c.first s.received with
        | none   =>
          have := (h.table c.txn i).2 ⟨c, hc, rfl, hf⟩
          rw [← hans, hnone] at this
          cases this
        | some k => exact Call.first_concat_of_some m (h.calls i c hc).since hf
    · rename_i i hi
      exact h.settle hm hi
  · rename_i hm
    have hpass : Matched { s with received := s.received ++ [m] } :=
      h.pass (fun i c hc => Call.first_concat_of_not (h.calls i c hc).since (by simp [Msg.answers, hm]))
    split
    · exact hpass.frame _ _
    · split
      · exact hpass.frame _ _
      · split
        · exact hpass.send _ _ _
        · split
          · exact hpass.frame _ _
          · exact hpass

theorem Matched.callback {s : State} (h : Matched s) (k : Nat) (m : Msg) (data : List UInt8) (status : Int) :
    Matched (s.callback k m data status) := by
  unfold State.callback
  split
  · exact h.send _ _ _
  · split
    · exact h.send _ _ _
    · split
      · exact h.send _ _ _
      · split
        · exact h.send _ _ _
        · exact h.frame _ _

/-- **Every step keeps the calls matched.** -/
theorem Matched.step {msixCb : Bool} {s s' : State} {e : Event} (h : Matched s) (he : step msixCb s e = some s') :
    Matched s' := by
  unfold Bridge.step at he
  split at he
  · cases he
    exact h.request _
  · split at he
    · cases he
    · rename_i c hc
      obtain ⟨c', hc', rfl⟩ := Option.map_eq_some_iff.1 he
      exact h.call hc hc'
  · split at he
    · cases he
    · split at he
      · cases he
        exact h.frame _ _
      · split at he
        · cases he
          exact h.receive _ _
        · cases he
  · split at he
    · cases he
      exact h.frame _ _
    · cases he
  · split at he
    · cases he
      exact h.callback _ _ _ _
    · cases he
  · split at he
    · cases he
      exact h.frame _ _
    · cases he
  · split at he
    · cases he
      exact h.frame _ _
    · cases he
  · cases he
    exact h.frame _ _

theorem matched_run {msixCb : Bool} {es : List Event} {s : State} (h : run (step msixCb) {} es = some s) : Matched s :=
  run_invariant (fun _ _ _ hi he => hi.step he) es {} s matched_init h

/-- **Responses reach the calls they belong to**, whatever the order of tasks, responses and timeouts: a call returns
the first response with its identifier since it registered, no message is returned twice, a call that has not given up
holds the response that came for it, and the table has exactly the calls that none came for, those that gave up
included. -/
theorem responses_reach_calls (msixCb : Bool) (es : List Event) (s : State) (h : run (step msixCb) {} es = some s) :
    (∀ (i : Nat) (c : Call) (k : Nat), s.calls[i]? = some c → c.pc = .returned k →
      c.since ≤ k ∧ (∃ m, s.received[k]? = some m ∧ m.answers c.txn = true) ∧
        ∀ j m, c.since ≤ j → j < k → s.received[j]? = some m → m.answers c.txn = false) ∧
    (∀ (i j : Nat) (c d : Call) (k : Nat), s.calls[i]? = some c → s.calls[j]? = some d → c.pc = .returned k →
      d.pc = .returned k → i = j) ∧
    (∀ (i : Nat) (c : Call) (k : Nat) (m : Msg), s.calls[i]? = some c → c.pc ≠ .timedOut → c.since ≤ k →
      s.received[k]? = some m → m.answers c.txn = true → ∃ k', k' ≤ k ∧ c.future = .done k') ∧
    (∀ (t : Int) (i : Nat), s.pending t = some i ↔ ∃ c, s.calls[i]? = some c ∧ c.txn = t ∧
      ∀ k m, c.since ≤ k → s.received[k]? = some m → m.answers c.txn = false) := by
  have hs := matched_run h
  have hfirst : ∀ (i : Nat) (c : Call) (k : Nat), s.calls[i]? = some c → c.pc = .returned k →
      c.first s.received = some k :=
    fun i c k hc hpc => (hs.calls i c hc).done k ((hs.calls i c hc).returned k hpc)
  refine ⟨fun i c k hc hpc => firstFrom_eq_some_iff.1 (hfirst i c k hc hpc), ?_, ?_, ?_⟩
  · intro i j c d k hc hd hcpc hdpc
    obtain ⟨-, ⟨m, hm, hmc⟩, -⟩ := firstFrom_eq_some_iff.1 (hfirst i c k hc hcpc)
    obtain ⟨-, ⟨m', hm', hmd⟩, -⟩ := firstFrom_eq_some_iff.1 (hfirst j d k hd hdpc)
    cases hm.symm.trans hm'
    simp only [Msg.answers, Bool.and_eq_true, beq_iff_eq] at hmc hmd
    exact hs.same hc hd (hmc.2.symm.trans hmd.2)
  · intro i c k m hc hpc hk hm hans
    have hcalls := hs.calls i c hc
    cases hf : c.future with
    | pending   =>
      have := firstFrom_eq_none_iff.1 (hcalls.pending hf) k m hk hm
      rw [hans] at this
      cases this
    | cancelled => exact absurd (hcalls.live hf) hpc
    | done k'   =>
      refine ⟨k', Nat.le_of_not_lt (fun hlt => ?_), rfl⟩
      have := (firstFrom_eq_some_iff.1 (hcalls.done k' hf)).2.2 k m hk hlt hm
      rw [hans] at this
      cases this
  · intro t i
    rw [hs.table]
    constructor
    · rintro ⟨c, hc, ht, hnone⟩
      exact ⟨c, hc, ht, firstFrom_eq_none_iff.1 hnone⟩
    · rintro ⟨c, hc, ht, hnone⟩
      exact ⟨c, hc, ht, firstFrom_eq_none_iff.2 hnone⟩

/-- Two calls, answered in the other order; a third gives up before its response. -/
theorem responses_reach_calls_crossed :
    let rsp (txn : UInt64) : Frame := ⟨Qemu.micsEncodeHeader ⟨8, 1, 1, txn, 0, 0, 0, 0, 1⟩, [txn.toUInt8]⟩
    let es : List Event :=
      [.request ⟨7, 0x4000, [], 1⟩, .request ⟨7, 0x5000, [], 1⟩, .request ⟨7, 0x6000, [], 1⟩, .call 0 (.drained true),
        .call 2 (.drained true), .call 1 (.drained true), .call 2 .timeout, .recv (rsp 2), .recv (rsp 3),
        .call 1 .resume, .recv (rsp 1), .call 0 .resume]
    ∃ s, run (step false) {} es = some s ∧ s.calls.map (·.pc) = [.returned 2, .returned 0, .timedOut] ∧
      (∃ m, s.received[2]? = some m ∧ m.answers 1 = true) := by
  intro rsp es
  have hrun : (run (step false) {} es).map (fun s => (s.calls.map (fun c => (c.txn, c.pc))))
      = some [(1, .returned 2), (2, .returned 0), (3, .timedOut)] := by
    decide +kernel
  obtain ⟨s, hs, hcalls⟩ := Option.map_eq_some_iff.1 hrun
  refine ⟨s, hs, ?_, ?_⟩
  · have := congrArg (List.map Prod.snd) hcalls
    rw [List.map_map] at this
    exact this
  · cases hc : s.calls with
    | nil         => rw [hc] at hcalls; cases hcalls
    | cons c rest =>
      rw [hc] at hcalls
      simp only [List.map_cons, List.cons.injEq, Prod.mk.injEq] at hcalls
      obtain ⟨-, hm, -⟩ := (responses_reach_calls false es s hs).1 0 c 2 (by rw [hc]; rfl) hcalls.1.2
      rw [hcalls.1.1] at hm
      exact hm

end Bridge
end Vip
