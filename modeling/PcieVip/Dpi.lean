import PcieVip.Endpoints
import PcieVip.Transaction
/-!
# Dpi — the DPI shim (`mini-ics/dpi/mini_ics_dpi.cpp`)

`mini_ics_send_request` over the server of its process: what it puts on the connection, what it returns, and what it
stages for the accessors.  How the kernel takes the message and what the host answers in time are data.  A request type
is any 32-bit value, of which the enumeration keeps sixteen bits.

`SendRequestToHost` returns the same empty optional when there is no client, when the send fails, when no response is
expected and when none comes.  Of these the shim tells apart only the third, by the type of the request, before it looks
at the result; so a request without a response is always reported as a success (`reports_delivery_iff`).
-/
namespace Vip
namespace Dpi

open Ics

/-! ## MakeHeader for any type -/

/-- `MakeHeader` of a type that may be no enumerator. -/
def makeHeaderOf (type : UInt16) (txnId address byteEnable : UInt64) (status : StatusCode) (simTimestamp : UInt64)
    (payloadLen : UInt32) (flags : UInt16) (transferLen : UInt32) : Header :=
  { msgType := type, flags, payloadLen, txnId, simTimestamp, address, byteEnable, status := status.code
    transferLen :=
      if transferLen = 0 then
        if type = MessageType.mmioReadReq.code ∧ payloadLen = 0 then popcountll byteEnable else payloadLen
      else transferLen }

theorem makeHeaderOf_code (type : MessageType) (txnId address byteEnable : UInt64) (status : StatusCode)
    (simTimestamp : UInt64) (payloadLen : UInt32) (flags : UInt16) (transferLen : UInt32) :
    makeHeaderOf type.code txnId address byteEnable status simTimestamp payloadLen flags transferLen =
      makeHeader type txnId address byteEnable status simTimestamp payloadLen flags transferLen := by
  have htype : type.code = MessageType.mmioReadReq.code ↔ type = .mmioReadReq :=
    ⟨fun h => MessageType.code_injective _ _ h, fun h => by rw [h]⟩
  simp only [makeHeaderOf, makeHeader, htype]

/-! ## SendRequestToHost -/

structure ServerState where
  running   : Bool := true
  hasClient : Bool := false
  txnGen    : TransactionIdGenerator := {}

/-- What becomes of a request: how the kernel takes it, and what `WaitFor` returns once it is sent. -/
structure Wire where
  tx     : List TxTurn
  answer : Option Message := none

structure ToHost where
  rsp    : Option Message
  txnId  : UInt64
  server : ServerState
  wrote  : List UInt8

def sendRequestToHost (s : ServerState) (type : UInt16) (address : UInt64) (payload : List UInt8) (transferLen : UInt32)
    (expectResponse : Bool) (w : Wire) : ToHost :=
  if !s.hasClient then ⟨none, 0, s, []⟩
  else
    let id := s.txnGen.next
    let hdr := makeHeaderOf type id.1 address 0 .success 0 (UInt32.ofNat payload.length) kFlagNone transferLen
    let sent := sendAll (serializeMessage hdr payload) w.tx
    let s := { s with txnGen := id.2 }
    if sent.status ≠ .ok then ⟨none, id.1, s, sent.wrote⟩
    else if !expectResponse then ⟨none, id.1, s, sent.wrote⟩
    else ⟨w.answer, id.1, s, sent.wrote⟩

/-! ## mini_ics_send_request -/

structure Globals where
  server          : Option ServerState := none
  inboundPayload  : List UInt8 := []
  responsePayload : List UInt8 := []

/-- The arguments; `payload` gives the bytes of the open array, if there is one. -/
structure Args where
  msgType      : UInt32
  address      : UInt64 := 0
  payload      : Option (Nat → UInt8) := none
  length       : UInt32 := 0
  nullTxnId    : Bool := false
  nullStatus   : Bool := false

namespace Args

def type (a : Args) : UInt16 := a.msgType.toUInt16

/-- `CopyOpenArray`. -/
def data (a : Args) : List UInt8 :=
  if a.type ≠ MessageType.dmaReadReq.code ∧ a.length > 0 then
    match a.payload with
    | none       => []
    | some bytes => (List.range a.length.toNat).map bytes
  else []

/-- Only DMA requests wait for a response. -/
def expectResponse (a : Args) : Bool :=
  a.type == MessageType.dmaReadReq.code || a.type == MessageType.dmaWriteReq.code

def request (a : Args) (txnId : UInt64) : Message :=
  ⟨makeHeaderOf a.type txnId a.address 0 .success 0 (UInt32.ofNat a.data.length) kFlagNone a.length, a.data⟩

end Args

structure Returned where
  code      : Int
  txnId     : Option UInt64 := none
  outStatus : Option UInt32 := none
  globals   : Globals
  wrote     : List UInt8 := []

def miniIcsSendRequest (g : Globals) (a : Args) (w : Wire) : Returned :=
  if a.nullTxnId || a.nullStatus then { code := -1, globals := g }
  else
    match g.server with
    | none   => { code := -1, globals := g }
    | some s =>
      if !s.running then { code := -1, globals := g }
      else
        let r := sendRequestToHost s a.type a.address a.data a.length a.expectResponse w
        let g := { g with server := some r.server }
        if !a.expectResponse then ⟨0, some r.txnId, some StatusCode.success.code, g, r.wrote⟩
        else
          match r.rsp with
          | none     => ⟨-3, some r.txnId, some StatusCode.errorTimeout.code, g, r.wrote⟩
          | some rsp =>
            ⟨if rsp.header.isStatus .success then 0 else -2, some r.txnId, some rsp.header.status,
              { g with responsePayload := rsp.payload }, r.wrote⟩

/-- The call gets as far as the server. -/
def Callable (g : Globals) (a : Args) (s : ServerState) : Prop :=
  a.nullTxnId = false ∧ a.nullStatus = false ∧ g.server = some s ∧ s.running = true

/-- The whole request was written to a connected client, and a DMA request was answered with success. -/
structure Delivered (g : Globals) (a : Args) (w : Wire) : Prop where
  written  : ∃ s, g.server = some s ∧ s.hasClient = true ∧
    (miniIcsSendRequest g a w).wrote = (a.request s.txnGen.nextId).bytes
  answered : a.expectResponse = true → ∃ rsp, w.answer = some rsp ∧ rsp.header.isStatus .success = true

/-! ## What a call reports -/

section ToHost

variable (s : ServerState) (a : Args) (w : Wire)

def Goes : Prop := s.hasClient = true ∧ takesAll (kHeaderSize + a.data.length) w.tx = true

theorem sendAll_request_iff :
    (sendAll (a.request s.txnGen.nextId).bytes w.tx).status = .ok ↔
      takesAll (kHeaderSize + a.data.length) w.tx = true := by
  rw [sendAll_ok_iff, Message.length_bytes]
  rfl

theorem sendRequestToHost_eq {sent : SendResult} (h : sendAll (a.request s.txnGen.nextId).bytes w.tx = sent) :
    sendRequestToHost s a.type a.address a.data a.length a.expectResponse w =
      if s.hasClient = true then
        ⟨if sent.status = .ok ∧ a.expectResponse = true then w.answer else none, s.txnGen.nextId,
          { s with txnGen := s.txnGen.next.2 }, sent.wrote⟩
      else ⟨none, 0, s, []⟩ := by
  have hsent : sendAll (serializeMessage (makeHeaderOf a.type s.txnGen.next.1 a.address 0 .success 0
      (UInt32.ofNat a.data.length) kFlagNone a.length) a.data) w.tx = sent := h
  unfold sendRequestToHost
  dsimp only
  rw [hsent]
  cases s.hasClient with
  | false => rfl
  | true  =>
    by_cases hok : sent.status = .ok
    · cases a.expectResponse <;> simp [hok, TransactionIdGenerator.next]
    · simp [hok, TransactionIdGenerator.next]

/-- **What reaches the kernel is the whole request exactly if the request goes.** -/
theorem wrote_iff :
    s.hasClient = true ∧ (sendRequestToHost s a.type a.address a.data a.length a.expectResponse w).wrote =
        (a.request s.txnGen.nextId).bytes ↔
      Goes s a w := by
  unfold Goes
  refine and_congr_right (fun hclient => ?_)
  rw [← sendAll_request_iff, (sendAll_wrote w.tx _).2, sendRequestToHost_eq s a w rfl, if_pos hclient]

theorem rsp_eq_some_iff (rsp : Message) :
    (sendRequestToHost s a.type a.address a.data a.length a.expectResponse w).rsp = some rsp ↔
      Goes s a w ∧ a.expectResponse = true ∧ w.answer = some rsp := by
  have hiff := sendAll_request_iff s a w
  rw [Goes, ← hiff, sendRequestToHost_eq s a w rfl]
  generalize sendAll (a.request s.txnGen.nextId).bytes w.tx = sent
  by_cases hclient : s.hasClient = true
  · by_cases hok : sent.status = .ok ∧ a.expectResponse = true
    · simp [hclient, hok]
    · simp only [hclient, if_true, if_neg hok]
      exact iff_of_false nofun (fun h => hok ⟨h.1.2, h.2.1⟩)
  · simp [hclient]

end ToHost

section Report

variable {g : Globals} {a : Args} {s : ServerState} (w : Wire)

theorem miniIcsSendRequest_of_callable (h : Callable g a s) :
    miniIcsSendRequest g a w =
      let r := sendRequestToHost s a.type a.address a.data a.length a.expectResponse w
      let g := { g with server := some r.server }
      if !a.expectResponse then ⟨0, some r.txnId, some StatusCode.success.code, g, r.wrote⟩
      else
        match r.rsp with
        | none     => ⟨-3, some r.txnId, some StatusCode.errorTimeout.code, g, r.wrote⟩
        | some rsp =>
          ⟨if rsp.header.isStatus .success then 0 else -2, some r.txnId, some rsp.header.status,
            { g with responsePayload := rsp.payload }, r.wrote⟩ := by
  obtain ⟨htxn, hst, hserver, hrun⟩ := h
  rw [miniIcsSendRequest, htxn, hst, if_neg (by decide), hserver]
  dsimp only
  rw [hrun, if_neg (by decide)]

theorem wrote_of_callable (h : Callable g a s) :
    (miniIcsSendRequest g a w).wrote =
      (sendRequestToHost s a.type a.address a.data a.length a.expectResponse w).wrote := by
  rw [miniIcsSendRequest_of_callable w h]
  dsimp only
  split
  · rfl
  · split <;> rfl

theorem delivered_of_goes (h : Callable g a s) (hgoes : Goes s a w)
    (hans : a.expectResponse = true → ∃ rsp, w.answer = some rsp ∧ rsp.header.isStatus .success = true) :
    Delivered g a w := by
  obtain ⟨hclient, hwrote⟩ := (wrote_iff s a w).2 hgoes
  refine ⟨⟨s, h.2.2.1, hclient, ?_⟩, hans⟩
  rw [wrote_of_callable w h, hwrote]

/-- **A DMA request is reported as a success only if it was delivered.** -/
theorem dma_delivered (h : Callable g a s) (hexp : a.expectResponse = true)
    (hzero : (miniIcsSendRequest g a w).code = 0) : Delivered g a w := by
  rw [miniIcsSendRequest_of_callable w h, hexp] at hzero
  dsimp only at hzero
  rw [if_neg (by decide)] at hzero
  split at hzero
  · cases hzero
  · rename_i rsp hrsp
    rw [← hexp, rsp_eq_some_iff] at hrsp
    refine delivered_of_goes w h hrsp.1 (fun _ => ⟨rsp, hrsp.2.2, ?_⟩)
    by_contra hbad
    rw [if_neg hbad] at hzero
    cases hzero

theorem reported (h : Callable g a s) (hexp : a.expectResponse = false) : (miniIcsSendRequest g a w).code = 0 := by
  rw [miniIcsSendRequest_of_callable w h, hexp]
  rfl

end Report

theorem miniIcsSendRequest_of_not_callable {g : Globals} {a : Args} (w : Wire) (h : ∀ s, ¬ Callable g a s) :
    miniIcsSendRequest g a w = { code := -1, globals := g } := by
  unfold miniIcsSendRequest
  split
  · rfl
  · rename_i hnull
    rw [Bool.or_eq_true, not_or, Bool.not_eq_true, Bool.not_eq_true] at hnull
    split
    · rfl
    · rename_i s hserver
      split
      · rfl
      · rename_i hrun
        exact absurd ⟨hnull.1, hnull.2, hserver, by simpa using hrun⟩ (h s)

/-- **A call reports a success only for a request that was delivered, exactly if it does not get as far as the server,
or waits for a response, or the client is there and the kernel takes the whole request.** -/
theorem reports_delivery_iff (g : Globals) (a : Args) (w : Wire) :
    ((miniIcsSendRequest g a w).code = 0 → Delivered g a w) ↔
      ∀ s, Callable g a s → a.expectResponse = true ∨
        s.hasClient = true ∧ takesAll (kHeaderSize + a.data.length) w.tx = true := by
  constructor
  · intro h s hcall
    refine or_iff_not_imp_left.2 (fun hexp => ?_)
    obtain ⟨s', hserver, hclient, hwrote⟩ := (h (reported w hcall (Bool.eq_false_iff.2 hexp))).written
    cases hserver.symm.trans hcall.2.2.1
    rw [wrote_of_callable w hcall] at hwrote
    exact (wrote_iff s a w).1 ⟨hclient, hwrote⟩
  · intro h hzero
    by_cases hcall : ∃ s, Callable g a s
    · obtain ⟨s, hcall⟩ := hcall
      by_cases hexp : a.expectResponse = true
      · exact dma_delivered w hcall hexp hzero
      · exact delivered_of_goes w hcall ((h s hcall).resolve_left hexp) (fun hc => absurd hc hexp)
    · rw [miniIcsSendRequest_of_not_callable w (fun s hs => hcall ⟨s, hs⟩)] at hzero
      cases hzero

/-- An interrupt without a client: nothing is written and the call returns 0. -/
theorem interrupt_lost :
    let g : Globals := { server := some {} }
    let a : Args := { msgType := 11 }
    (miniIcsSendRequest g a { tx := [] }).code = 0 ∧ (miniIcsSendRequest g a { tx := [] }).wrote = [] ∧
      ¬ ((miniIcsSendRequest g a { tx := [] }).code = 0 → Delivered g a { tx := [] }) := by
  refine ⟨rfl, rfl, fun h => ?_⟩
  obtain ⟨s, hserver, hclient, -⟩ := (h rfl).written
  cases hserver
  cases hclient

/-! ## The backends' view of the call -/

/-- **Where the request goes, the code is what the backends' model of the call returns.** -/
theorem code_eq_script {g : Globals} {s : ServerState} {type : MessageType} {address : UInt64} {bytes : Nat → UInt8}
    {length : UInt32} (c : Endpoint.Script) (w : Wire) (hans : w.answer = c.answers.headD none) :
    let a : Args := { msgType := type.code.toUInt32, address, payload := some bytes, length }
    Callable g a s → Goes s a w →
      (miniIcsSendRequest g a w).code = (Endpoint.miniIcsSendRequest c type address
        ((List.range length.toNat).map bytes) length).1 := by
  intro a hcall hgoes
  have htype : a.type = type.code := UInt16.toUInt16_toUInt32 _
  have hexp : a.expectResponse = decide (type = .dmaReadReq ∨ type = .dmaWriteReq) := by
    rw [Args.expectResponse, htype]
    cases type <;> rfl
  rw [miniIcsSendRequest_of_callable w hcall, Endpoint.miniIcsSendRequest]
  dsimp only
  by_cases hdma : type = .dmaReadReq ∨ type = .dmaWriteReq
  · have hwait : a.expectResponse = true := by
      rw [hexp]
      exact decide_eq_true hdma
    have hrsp : (sendRequestToHost s a.type a.address a.data a.length a.expectResponse w).rsp = w.answer := by
      cases hw : w.answer with
      | some rsp => exact (rsp_eq_some_iff s a w rsp).2 ⟨hgoes, hwait, hw⟩
      | none     =>
        refine Option.eq_none_iff_forall_ne_some.2 (fun rsp hrsp => ?_)
        rw [rsp_eq_some_iff, hw] at hrsp
        cases hrsp.2.2
    rw [hrsp, hwait, hans]
    simp only [hdma, decide_true, Bool.not_true, Bool.false_eq_true, if_false, if_true,
      Endpoint.Script.sendRequestToHost]
    cases c.answers.headD none <;> rfl
  · have hwait : a.expectResponse = false := by
      rw [hexp]
      exact decide_eq_false hdma
    rw [hwait]
    simp only [hdma, decide_false, Bool.not_false, if_true]

end Dpi
end Vip
