import PcieVip.LibFrame
import PcieVip.QemuSocket
import PcieVip.Server
/-!
# WireSend — the line after sends that fail

Both sides hold a lock for the whole of a send, so a connection sees a sequence of sends; each writes a front part of
its message and returns.  A failure is reported to the caller, but neither side stops using the connection: once a
message was cut in the middle, the next one is read as its rest (`not_wire_framed`).  The line stays framed as long as
nothing is written after such a send (`wire_framed_of_unbroken`).
-/
namespace Vip

open Vip.Frame (Framed Attempt written Unbroken)

/-! ## Complete messages -/

namespace Ics

/-- A header of this protocol version, with a payload of the announced length. -/
structure Message.Standard (m : Message) : Prop where
  magic     : m.header.magic = kProtocolMagic
  version   : m.header.version = kProtocolVersion
  headerLen : m.header.headerLen.toNat = kHeaderSize
  payload   : m.payload.length = m.header.payloadLen.toNat

def Complete (bs : List UInt8) : Prop := ∃ m : Message, m.Standard ∧ bs = m.bytes

theorem framed_header {bs : List UInt8} (h : Framed Complete bs) (hlen : kHeaderSize ≤ bs.length) :
    (headerAt bs).magic = kProtocolMagic ∧ (headerAt bs).version = kProtocolVersion ∧
      (headerAt bs).headerLen.toNat = kHeaderSize := by
  obtain ⟨ms, hms, rest, hrest⟩ := h
  cases ms with
  | nil =>
    have := congrArg List.length hrest
    simp only [List.length_append, List.flatten_nil, List.length_nil, kHeaderSize] at this hlen
    omega
  | cons x xs =>
    obtain ⟨m, hm, hx⟩ := hms x List.mem_cons_self
    have hsplit : bs ++ rest = serializeHeader m.header ++ (m.payload ++ xs.flatten) := by
      rw [hrest, List.flatten_cons, hx, Message.bytes, serializeMessage, List.append_assoc]
    have htake : bs.take kHeaderSize = serializeHeader m.header := by
      have hext : (bs ++ rest).take kHeaderSize = bs.take kHeaderSize := List.take_append_of_le_length hlen
      rw [← hext, hsplit, List.take_left' (length_serializeHeader _)]
    have hbs : bs = serializeHeader m.header ++ bs.drop kHeaderSize := by rw [← htake, List.take_append_drop]
    have hat : headerAt bs = m.header := by rw [hbs, headerAt_serializeHeader]
    rw [hat]
    exact ⟨hm.magic, hm.version, hm.headerLen⟩

/-! ## The server's sends -/

inductive Outgoing where
  | helloAck (hello : Message)
  | response (h : Header) (payload : List UInt8)
  | request (r : Request) (txnId : UInt64)
  deriving DecidableEq, Repr

def Outgoing.message : Outgoing → Message
  | .helloAck hello     => Ics.helloAck hello
  | .response h payload => ⟨h, payload⟩
  | .request r txnId    => r.message txnId

/-- What the callers see to: a response's header announces its payload, a request's payload has a length that fits. -/
def Outgoing.Sized : Outgoing → Prop
  | .helloAck _         => True
  | .response h payload => (⟨h, payload⟩ : Message).Standard
  | .request r _        => r.payload.length < 2 ^ 32

theorem Outgoing.Sized.standard {o : Outgoing} (h : o.Sized) : o.message.Standard := by
  cases o with
  | helloAck hello => exact ⟨rfl, rfl, rfl, rfl⟩
  | response hdr payload => exact h
  | request r txnId =>
    refine ⟨rfl, rfl, rfl, ?_⟩
    exact (Nat.mod_eq_of_lt h).symm

structure ServerSend where
  outgoing : Outgoing
  tx       : List TxTurn
  deriving DecidableEq, Repr

def ServerSend.bytes (x : ServerSend) : List UInt8 := x.outgoing.message.bytes

/-- `client_socket_.SendAll(bytes, io_timeout_ms_)`. -/
def ServerSend.wrote (x : ServerSend) : List UInt8 := (sendAll x.bytes x.tx).wrote

/-- The kernel takes some of the message but not all of it. -/
def ServerSend.torn (x : ServerSend) : Bool := !refuses x.tx && !takesAll x.bytes.length x.tx

def ServerSend.attempt (x : ServerSend) : Attempt UInt8 := ⟨x.bytes, x.wrote, (sendAll_wrote x.tx x.bytes).1⟩

theorem ServerSend.attempt_part (x : ServerSend) : x.attempt.part = x.wrote := by simp only [ServerSend.attempt]

theorem ServerSend.attempt_whole (x : ServerSend) : x.attempt.whole = x.bytes := by simp only [ServerSend.attempt]

theorem server_framed {sends : List ServerSend} (hs : ∀ x ∈ sends, x.outgoing.Sized)
    (h : sends.Pairwise (fun x y => x.torn = true → refuses y.tx = true)) :
    Framed Complete (sends.flatMap ServerSend.wrote) := by
  have hw : written (sends.map ServerSend.attempt) = sends.flatMap ServerSend.wrote := by
    simp only [written, List.flatMap_map, ServerSend.attempt_part]
  rw [← hw]
  apply Frame.framed_of_unbroken
  · intro a ha
    obtain ⟨x, hx, hxa⟩ := List.mem_map.1 ha
    rw [← hxa, x.attempt_whole]
    exact ⟨x.outgoing.message, (hs x hx).standard, by rw [ServerSend.bytes]⟩
  · unfold Unbroken
    rw [List.pairwise_map]
    refine h.imp ?_
    intro x y hxy
    rw [x.attempt_part, x.attempt_whole, y.attempt_part]
    cases ht : x.torn with
    | true => exact .inr (sendAll_of_refuses y.tx y.bytes (hxy ht))
    | false =>
      rcases Bool.and_eq_false_iff.1 ht with hr | hr
      · exact .inl (.inl (sendAll_of_refuses x.tx x.bytes (by simpa using hr)))
      · exact .inl (.inr (sendAll_of_takesAll x.tx x.bytes (by simpa using hr)))

end Ics

/-! ## QEMU's sends -/

namespace Qemu

structure QemuSend where
  h       : MicsHeader
  payload : List UInt8
  tx      : List MicsTurn
  deriving DecidableEq, Repr

def QemuSend.wrote (x : QemuSend) : List UInt8 := (micsSend true x.h x.payload x.tx).wrote

def QemuSend.torn (x : QemuSend) : Bool := !micsRefuses x.tx && !micsTakesAll x.h x.tx

def QemuSend.attempt (x : QemuSend) : Attempt UInt8 :=
  ⟨micsEncodeHeader x.h ++ x.payload, x.wrote, micsSend_front true x.h x.payload x.tx⟩

theorem QemuSend.attempt_part (x : QemuSend) : x.attempt.part = x.wrote := by simp only [QemuSend.attempt]

theorem QemuSend.attempt_whole (x : QemuSend) : x.attempt.whole = micsEncodeHeader x.h ++ x.payload := by
  simp only [QemuSend.attempt]

theorem qemu_framed {sends : List QemuSend} (hs : ∀ x ∈ sends, x.payload.length = x.h.payloadLen.toNat)
    (h : sends.Pairwise (fun x y => x.torn = true → micsRefuses y.tx = true)) :
    Framed Ics.Complete (sends.flatMap QemuSend.wrote) := by
  have hw : written (sends.map QemuSend.attempt) = sends.flatMap QemuSend.wrote := by
    simp only [written, List.flatMap_map, QemuSend.attempt_part]
  rw [← hw]
  apply Frame.framed_of_unbroken
  · intro a ha
    obtain ⟨x, hx, hxa⟩ := List.mem_map.1 ha
    rw [← hxa, x.attempt_whole, micsEncodeHeader_eq]
    exact ⟨⟨x.h.toIcs, x.payload⟩, ⟨rfl, rfl, rfl, hs x hx⟩, by rw [Ics.Message.bytes, Ics.serializeMessage]⟩
  · unfold Unbroken
    rw [List.pairwise_map]
    refine List.Pairwise.imp_of_mem ?_ h
    intro x y hx _ hxy
    rw [x.attempt_part, x.attempt_whole, y.attempt_part]
    cases ht : x.torn with
    | true => exact .inr (micsSend_of_refuses (hxy ht) true y.h y.payload)
    | false =>
      rcases Bool.and_eq_false_iff.1 ht with hr | hr
      · exact .inl (.inl (micsSend_of_refuses (by simpa using hr) true x.h x.payload))
      · exact .inl (.inr (micsSend_of_takesAll (hs x hx) (by simpa using hr)))

end Qemu

/-! ## Both -/

/-- **The line stays framed as long as nothing is written after a send that was cut in the middle**, in either
direction of a connection. -/
theorem wire_framed_of_unbroken (up : List Ics.ServerSend) (down : List Qemu.QemuSend)
    (hup : ∀ x ∈ up, x.outgoing.Sized) (hdown : ∀ x ∈ down, x.payload.length = x.h.payloadLen.toNat) :
    (up.Pairwise (fun x y => x.torn = true → Ics.refuses y.tx = true) →
      Framed Ics.Complete (up.flatMap Ics.ServerSend.wrote)) ∧
    (down.Pairwise (fun x y => x.torn = true → Qemu.micsRefuses y.tx = true) →
      Framed Ics.Complete (down.flatMap Qemu.QemuSend.wrote)) :=
  ⟨fun h => Ics.server_framed hup h, fun h => Qemu.qemu_framed hdown h⟩

/-- A response that times out half way, as the last thing that is sent; a request that a full buffer refuses, and one
that gets through. -/
theorem wire_framed_of_unbroken_last :
    let ready : List Ics.PollRet := [.revents false false false true]
    let ack : Ics.ServerSend := ⟨.helloAck ⟨{ msgType := 1, txnId := 1 }, []⟩, [⟨ready, .wrote 64⟩]⟩
    let rsp : Ics.ServerSend := ⟨.response { msgType := 4, txnId := 2 } [], [⟨ready, .wrote 10⟩, ⟨[.timedOut], .eintr⟩]⟩
    let full : Qemu.QemuSend := ⟨⟨5, 0, 2, 2, 0, 0x14, 3, 0, 2⟩, [1, 0], [⟨[.timedOut], []⟩]⟩
    let sent : Qemu.QemuSend :=
      ⟨⟨5, 0, 2, 3, 0, 0x14, 3, 0, 2⟩, [1, 0], [⟨ready, [.wrote 70]⟩, ⟨ready, [.eintr, .wrote 2]⟩]⟩
    Framed Ics.Complete ([ack, rsp].flatMap Ics.ServerSend.wrote) ∧
      Framed Ics.Complete ([full, sent].flatMap Qemu.QemuSend.wrote) := by
  intro ready ack rsp full sent
  have hup : ∀ x ∈ [ack, rsp], x.outgoing.Sized := by
    intro x hx
    simp only [List.mem_cons, List.not_mem_nil, or_false] at hx
    rcases hx with rfl | rfl
    · trivial
    · exact ⟨rfl, rfl, rfl, rfl⟩
  have h := wire_framed_of_unbroken [ack, rsp] [full, sent] hup (by decide +kernel)
  exact ⟨h.1 (by decide +kernel), h.2 (by decide +kernel)⟩

/-- Ten bytes of a response, a timeout, and then the next response: the header that a reader sees is a mix of the two.
The same on QEMU's side. -/
theorem not_wire_framed :
    (¬ ∀ sends : List Ics.ServerSend, (∀ x ∈ sends, x.outgoing.Sized) →
      Framed Ics.Complete (sends.flatMap Ics.ServerSend.wrote)) ∧
    (¬ ∀ sends : List Qemu.QemuSend, (∀ x ∈ sends, x.payload.length = x.h.payloadLen.toNat) →
      Framed Ics.Complete (sends.flatMap Qemu.QemuSend.wrote)) := by
  let ready : List Ics.PollRet := [.revents false false false true]
  constructor
  · intro hall
    let cut : Ics.ServerSend := ⟨.response { msgType := 4, txnId := 2 } [], [⟨ready, .wrote 10⟩, ⟨[.timedOut], .eintr⟩]⟩
    let next : Ics.ServerSend := ⟨.response { msgType := 4, txnId := 3 } [], [⟨ready, .wrote 64⟩]⟩
    have hs : ∀ x ∈ [cut, next], x.outgoing.Sized := by
      intro x hx
      simp only [List.mem_cons, List.not_mem_nil, or_false] at hx
      rcases hx with rfl | rfl
      · exact ⟨rfl, rfl, rfl, rfl⟩
      · exact ⟨rfl, rfl, rfl, rfl⟩
    have h := Ics.framed_header (hall [cut, next] hs) (by decide +kernel)
    exact absurd h.2.2 (by decide +kernel)
  · intro hall
    let cut : Qemu.QemuSend := ⟨⟨5, 0, 2, 2, 0, 0x14, 3, 0, 2⟩, [1, 0], [⟨ready, [.wrote 10]⟩, ⟨[.timedOut], []⟩]⟩
    let next : Qemu.QemuSend := ⟨⟨5, 0, 2, 3, 0, 0x14, 3, 0, 2⟩, [1, 0], [⟨ready, [.wrote 64]⟩, ⟨ready, [.wrote 2]⟩]⟩
    have h := Ics.framed_header (hall [cut, next] (by decide +kernel)) (by decide +kernel)
    exact absurd h.2.2 (by decide +kernel)

end Vip
