import PcieVip.Dpi
import PcieVip.LibServe
import Mathlib.Data.List.Induction
/-!
# DpiStaging — the two payloads that the DPI shim keeps for its caller

All calls of `mini-ics/dpi/mini_ics_dpi.cpp` over its globals, one after the other as the simulator makes them.  Between
two calls the server may get or lose its client and may stop; what comes from the host is data of the call.  The events
of a run are the calls with the globals they found, and the payloads that the accessors ought to give back follow from
the events alone (`lastPolled`, `lastRequest`).

`g_inbound_payload` is written by every poll that returns a message, and by nothing else.  `g_response_payload` is
written only by a request that gets a response; one without leaves the bytes of an earlier response behind
(`staging_iff`).
-/
namespace Vip
namespace Dpi

open Ics Serve

/-! ## The other calls -/

/-- `starts` is what `Start` returns. -/
def miniIcsInit (g : Globals) (nullPath starts : Bool) : Int × Globals :=
  if g.server.isSome then (0, g)
  else if nullPath then (-1, g)
  else if starts then (0, { g with server := some {} })
  else (-1, g)

structure PollOut where
  msgType : UInt32
  txnId   : UInt64
  address : UInt64
  length  : UInt32
  status  : UInt32
  deriving DecidableEq, Repr

structure Polled where
  code    : Int
  out     : Option PollOut := none
  globals : Globals

/-- `msg` is what `PollInbound` returns. -/
def miniIcsPoll (g : Globals) (nullArg : Bool) (msg : Option Message) : Polled :=
  if nullArg then { code := -1, globals := g }
  else
    match g.server with
    | none   => { code := -1, globals := g }
    | some s =>
      if !s.running then { code := -1, globals := g }
      else
        match msg with
        | none   => { code := 0, globals := g }
        | some m =>
          ⟨1, some ⟨m.header.msgType.toUInt32, m.header.txnId, m.header.address, m.header.transferLen, m.header.status⟩,
            { g with inboundPayload := m.payload }⟩

/-- The code of an accessor, and the byte that it stores. -/
def getByte (buffer : List UInt8) (index : UInt32) (nullValue : Bool) : Int × Option UInt32 :=
  if nullValue then (-1, none)
  else
    match buffer[index.toNat]? with
    | none   => (-1, none)
    | some b => (0, some b.toUInt32)

def miniIcsGetPayloadByte (g : Globals) (index : UInt32) (nullValue : Bool) : Int × Option UInt32 :=
  getByte g.inboundPayload index nullValue

def miniIcsGetResponsePayloadByte (g : Globals) (index : UInt32) (nullValue : Bool) : Int × Option UInt32 :=
  getByte g.responsePayload index nullValue

structure ResponseArgs where
  msgType : UInt32
  txnId   : UInt64
  address : UInt64 := 0
  status  : UInt32 := 0
  payload : Option (Nat → UInt8) := none
  length  : UInt32 := 0

def ResponseArgs.data (r : ResponseArgs) : List UInt8 :=
  if r.length > 0 then
    match r.payload with
    | none       => []
    | some bytes => (List.range r.length.toNat).map bytes
  else []

def ResponseArgs.header (r : ResponseArgs) : Header :=
  { makeHeaderOf r.msgType.toUInt16 r.txnId r.address 0 .success 0 (UInt32.ofNat r.data.length) kFlagIsResponse 0 with
    status := r.status }

def miniIcsSendResponse (g : Globals) (r : ResponseArgs) (tx : List TxTurn) : Int :=
  match g.server with
  | none   => -1
  | some s =>
    if !s.running then -1
    else if s.hasClient ∧ (sendAll (serializeMessage r.header r.data) tx).status = .ok then 0
    else -2

def miniIcsShutdown (_g : Globals) : Globals := {}

/-! ## Runs -/

inductive Call where
  | init (nullPath starts : Bool)
  | poll (nullArg : Bool) (msg : Option Message)
  | getPayloadByte (index : UInt32) (nullValue : Bool)
  | sendResponse (r : ResponseArgs) (tx : List TxTurn)
  | sendRequest (a : Args) (w : Wire)
  | getResponsePayloadByte (index : UInt32) (nullValue : Bool)
  | shutdown

def Globals.call (g : Globals) : Call → Globals
  | .init nullPath starts         => (miniIcsInit g nullPath starts).2
  | .poll nullArg msg             => (miniIcsPoll g nullArg msg).globals
  | .getPayloadByte _ _           => g
  | .sendResponse _ _             => g
  | .sendRequest a w              => (miniIcsSendRequest g a w).globals
  | .getResponsePayloadByte _ _   => g
  | .shutdown                     => miniIcsShutdown g

/-- A call, and how the server stands by then. -/
structure Turn where
  running   : Bool := true
  hasClient : Bool := true
  call      : Call

structure Event where
  found : Globals
  call  : Call

def Globals.at (g : Globals) (t : Turn) : Globals :=
  { g with server := g.server.map (fun s => { s with running := t.running, hasClient := t.hasClient }) }

def stage (g : Globals) (t : Turn) : Globals × Event := ((g.at t).call t.call, ⟨g.at t, t.call⟩)

/-! ## What the events put there -/

/-- The response to a request: what comes in time for a DMA request that reaches the host. -/
def Args.response? (a : Args) (g : Globals) (w : Wire) : Option Message :=
  match g.server with
  | none   => none
  | some s =>
    if !a.nullTxnId && !a.nullStatus && s.running && s.hasClient && takesAll (kHeaderSize + a.data.length) w.tx &&
      a.expectResponse then w.answer
    else none

namespace Event

def isShutdown (e : Event) : Bool :=
  match e.call with
  | .shutdown => true
  | _         => false

def polled? (e : Event) : Option (List UInt8) :=
  match e.call with
  | .poll nullArg msg => if (miniIcsPoll e.found nullArg msg).code = 1 then msg.map Message.payload else none
  | _                 => none

def requested? (e : Event) : Option (Option Message) :=
  match e.call with
  | .sendRequest a w => some (a.response? e.found w)
  | _                => none

end Event

/-- The events after the last shutdown, the latest first. -/
def sinceShutdown (tr : List Event) : List Event := tr.reverse.takeWhile (fun e => !e.isShutdown)

def lastPolled (tr : List Event) : Option (List UInt8) := (sinceShutdown tr).findSome? Event.polled?

def lastRequest (tr : List Event) : Option Message := ((sinceShutdown tr).findSome? Event.requested?).join

def lastResponse (tr : List Event) : Option Message := (sinceShutdown tr).findSome? (fun e => e.requested?.join)

/-- What an accessor ought to return. -/
def byteOf (payload : Option (List UInt8)) (index : UInt32) : Int × Option UInt32 :=
  match payload.bind (·[index.toNat]?) with
  | none   => (-1, none)
  | some b => (0, some b.toUInt32)

structure Staged (tr : List Event) (g : Globals) : Prop where
  inbound  : ∀ i, miniIcsGetPayloadByte g i false = byteOf (lastPolled tr) i
  response : ∀ i, miniIcsGetResponsePayloadByte g i false = byteOf ((lastRequest tr).map Message.payload) i

/-! ## One call -/

theorem response?_eq_some_iff (g : Globals) (a : Args) (w : Wire) (m : Message) :
    a.response? g w = some m ↔
      ∃ s, Callable g a s ∧ Goes s a w ∧ a.expectResponse = true ∧ w.answer = some m := by
  unfold Args.response? Callable Goes
  cases g.server with
  | none   =>
    refine iff_of_false (Option.some_ne_none m).symm ?_
    rintro ⟨s, ⟨-, -, hs, -⟩, -⟩
    cases hs
  | some s =>
    simp only [Option.some.injEq, Bool.and_eq_true, Bool.not_eq_true']
    split
    · rename_i h
      obtain ⟨⟨⟨⟨⟨h1, h2⟩, h3⟩, h4⟩, h5⟩, h6⟩ := h
      constructor
      · intro hm
        exact ⟨s, ⟨h1, h2, rfl, h3⟩, ⟨h4, h5⟩, h6, hm⟩
      · rintro ⟨-, -, -, -, hm⟩
        exact hm
    · rename_i h
      refine iff_of_false (Option.some_ne_none m).symm ?_
      rintro ⟨s', ⟨h1, h2, rfl, h3⟩, ⟨h4, h5⟩, h6, -⟩
      exact h ⟨⟨⟨⟨⟨h1, h2⟩, h3⟩, h4⟩, h5⟩, h6⟩

theorem response?_of_callable {g : Globals} {a : Args} {s : ServerState} (h : Callable g a s) (w : Wire) :
    a.response? g w = (sendRequestToHost s a.type a.address a.data a.length a.expectResponse w).rsp := by
  refine Option.ext (fun m => ?_)
  rw [response?_eq_some_iff, rsp_eq_some_iff]
  constructor
  · rintro ⟨s', hs', hrest⟩
    cases hs'.2.2.1.symm.trans h.2.2.1
    exact hrest
  · intro hrest
    exact ⟨s, h, hrest⟩

theorem response?_eq_none {g : Globals} {a : Args} (w : Wire) (h : ∀ s, Callable g a s → a.expectResponse = false) :
    a.response? g w = none := by
  refine Option.eq_none_iff_forall_ne_some.2 (fun m hm => ?_)
  obtain ⟨s, hs, -, hwait, -⟩ := (response?_eq_some_iff g a w m).1 hm
  rw [h s hs] at hwait
  cases hwait

theorem miniIcsSendRequest_buffers (g : Globals) (a : Args) (w : Wire) :
    (miniIcsSendRequest g a w).globals.inboundPayload = g.inboundPayload ∧
      (miniIcsSendRequest g a w).globals.responsePayload =
        ((a.response? g w).map Message.payload).getD g.responsePayload := by
  by_cases hcall : ∃ s, Callable g a s
  · obtain ⟨s, hcall⟩ := hcall
    rw [miniIcsSendRequest_of_callable w hcall]
    dsimp only
    split
    · rename_i hexp
      rw [response?_eq_none w (fun _ _ => by simpa using hexp)]
      exact ⟨rfl, rfl⟩
    · rw [response?_of_callable hcall]
      split
      · rename_i hnone
        rw [hnone]
        exact ⟨rfl, rfl⟩
      · rename_i rsp hsome
        rw [hsome]
        exact ⟨rfl, rfl⟩
  · have hno := fun s hs => hcall ⟨s, hs⟩
    rw [miniIcsSendRequest_of_not_callable w hno, response?_eq_none w (fun s hs => absurd hs (hno s))]
    exact ⟨rfl, rfl⟩

theorem miniIcsPoll_buffers (g : Globals) (nullArg : Bool) (msg : Option Message) :
    (miniIcsPoll g nullArg msg).globals.inboundPayload =
        (if (miniIcsPoll g nullArg msg).code = 1 then msg.map Message.payload else none).getD g.inboundPayload ∧
      (miniIcsPoll g nullArg msg).globals.responsePayload = g.responsePayload := by
  unfold miniIcsPoll
  split
  · exact ⟨rfl, rfl⟩
  split
  · exact ⟨rfl, rfl⟩
  split
  · exact ⟨rfl, rfl⟩
  cases msg with
  | none   => exact ⟨rfl, rfl⟩
  | some m => exact ⟨rfl, rfl⟩

theorem miniIcsInit_buffers (g : Globals) (nullPath starts : Bool) :
    (miniIcsInit g nullPath starts).2.inboundPayload = g.inboundPayload ∧
      (miniIcsInit g nullPath starts).2.responsePayload = g.responsePayload := by
  unfold miniIcsInit
  split_ifs <;> exact ⟨rfl, rfl⟩

/-- **What a call stages.** -/
theorem Event.buffers (e : Event) (h : e.isShutdown = false) :
    (e.found.call e.call).inboundPayload = e.polled?.getD e.found.inboundPayload ∧
      (e.found.call e.call).responsePayload =
        (e.requested?.join.map Message.payload).getD e.found.responsePayload := by
  obtain ⟨g, c⟩ := e
  cases c with
  | init nullPath starts       => exact miniIcsInit_buffers g nullPath starts
  | poll nullArg msg           => exact miniIcsPoll_buffers g nullArg msg
  | getPayloadByte _ _         => exact ⟨rfl, rfl⟩
  | sendResponse _ _           => exact ⟨rfl, rfl⟩
  | sendRequest a w            => exact miniIcsSendRequest_buffers g a w
  | getResponsePayloadByte _ _ => exact ⟨rfl, rfl⟩
  | shutdown                   => cases h

/-! ## What one more event changes -/

section Concat

variable {β : Type} (tr : List Event) (e : Event)

theorem sinceShutdown_concat :
    sinceShutdown (tr ++ [e]) = if e.isShutdown then [] else e :: sinceShutdown tr := by
  rw [sinceShutdown, List.reverse_concat, List.takeWhile_cons]
  cases e.isShutdown <;> rfl

theorem findSome_concat (f : Event → Option β) :
    (sinceShutdown (tr ++ [e])).findSome? f =
      if e.isShutdown then none else (f e).or ((sinceShutdown tr).findSome? f) := by
  rw [sinceShutdown_concat]
  cases e.isShutdown with
  | true  => rfl
  | false =>
    simp only [Bool.false_eq_true, if_false, List.findSome?_cons]
    cases f e <;> rfl

theorem lastRequest_concat (h : e.isShutdown = false) :
    lastRequest (tr ++ [e]) = e.requested?.elim (lastRequest tr) id := by
  rw [lastRequest, findSome_concat, h]
  cases e.requested? <;> rfl

theorem lastResponse_concat (h : e.isShutdown = false) :
    lastResponse (tr ++ [e]) = e.requested?.join.or (lastResponse tr) := by
  rw [lastResponse, findSome_concat, h]
  rfl

theorem last_of_shutdown (h : e.isShutdown = true) :
    lastPolled (tr ++ [e]) = none ∧ lastRequest (tr ++ [e]) = none ∧ lastResponse (tr ++ [e]) = none := by
  simp [lastPolled, lastRequest, lastResponse, findSome_concat, h]

end Concat

/-! ## Runs -/

structure Holds (tr : List Event) (g : Globals) : Prop where
  inbound  : g.inboundPayload = (lastPolled tr).getD []
  response : g.responsePayload = ((lastResponse tr).map Message.payload).getD []

theorem call_of_isShutdown {e : Event} (h : e.isShutdown = true) (g : Globals) : g.call e.call = {} := by
  obtain ⟨found, c⟩ := e
  cases c <;> first | rfl | cases h

theorem Event.open_of_requested {e : Event} {r : Option Message} (h : e.requested? = some r) :
    e.isShutdown = false := by
  obtain ⟨found, c⟩ := e
  cases c <;> first | rfl | cases h

theorem Holds.stage {tr : List Event} {g : Globals} (h : Holds tr g) (t : Turn) :
    Holds (tr ++ [(stage g t).2]) (stage g t).1 := by
  change Holds (tr ++ [⟨g.at t, t.call⟩]) ((g.at t).call t.call)
  cases hsd : (⟨g.at t, t.call⟩ : Event).isShutdown with
  | true  =>
    obtain ⟨hpolled, -, hresp⟩ := last_of_shutdown tr _ hsd
    rw [call_of_isShutdown hsd]
    exact ⟨by rw [hpolled]; rfl, by rw [hresp]; rfl⟩
  | false =>
    obtain ⟨hin, hresp⟩ := Event.buffers ⟨g.at t, t.call⟩ hsd
    refine ⟨?_, ?_⟩
    · rw [hin, lastPolled, findSome_concat, hsd, if_neg Bool.false_ne_true, Option.getD_or]
      exact congrArg _ h.inbound
    · rw [hresp, lastResponse_concat tr _ hsd, Option.map_or, Option.getD_or]
      exact congrArg _ h.response

theorem holds_after (ts : List Turn) : Holds (outputs stage {} ts) (after stage {} ts) :=
  trace_invariant (I := Holds) (fun _ _ t h => h.stage t) ts [] {} ⟨rfl, rfl⟩

theorem getByte_getD (payload : Option (List UInt8)) (i : UInt32) :
    getByte (payload.getD []) i false = byteOf payload i := by
  cases payload with
  | none   => rfl
  | some _ => rfl

/-- Every payload of an earlier response is gone by the time of a request without one. -/
def Fresh (tr : List Event) : Prop :=
  ((lastResponse tr).map Message.payload).getD [] = ((lastRequest tr).map Message.payload).getD []

theorem Fresh.staged {tr : List Event} {g : Globals} (hfresh : Fresh tr) (h : Holds tr g) : Staged tr g := by
  refine ⟨fun i => ?_, fun i => ?_⟩
  · rw [miniIcsGetPayloadByte, h.inbound, getByte_getD]
  · rw [miniIcsGetResponsePayloadByte, h.response, hfresh, getByte_getD]

theorem Fresh.concat {tr : List Event} (h : Fresh tr) (e : Event)
    (hquiet : e.requested? = some none → ∀ m, lastResponse tr = some m → m.payload = []) : Fresh (tr ++ [e]) := by
  unfold Fresh at h ⊢
  cases hsd : e.isShutdown with
  | true  =>
    obtain ⟨-, hreq, hresp⟩ := last_of_shutdown tr e hsd
    rw [hreq, hresp]
  | false =>
    rw [lastRequest_concat tr e hsd, lastResponse_concat tr e hsd]
    cases hr : e.requested? with
    | none   => exact h
    | some r =>
      cases r with
      | some m => rfl
      | none   =>
        -- what is left is the payload of an earlier response
        cases hlast : lastResponse tr with
        | none   => rfl
        | some m => exact hquiet hr m hlast

def Unanswered (g : Globals) (t : Turn) : Prop := ∃ a w, t.call = .sendRequest a w ∧ a.response? (g.at t) w = none

theorem unanswered_iff (g : Globals) (t : Turn) : Unanswered g t ↔ (stage g t).2.requested? = some none := by
  obtain ⟨run, client, c⟩ := t
  cases c <;> simp [Unanswered, stage, Event.requested?]

/-- **A run of which every request without a response finds no earlier payload stays fresh.** -/
theorem fresh_outputs (ts : List Turn)
    (h : ∀ pre t post, ts = pre ++ t :: post → Unanswered (after stage {} pre) t →
      ∀ m, lastResponse (outputs stage {} pre) = some m → m.payload = []) : Fresh (outputs stage {} ts) := by
  induction ts using List.reverseRecOn with
  | nil => rfl
  | append_singleton ts t ih =>
    rw [outputs_append, outputs_singleton]
    refine (ih (fun pre t' post heq => ?_)).concat _ (fun hnone => ?_)
    · exact h pre t' (post ++ [t]) (by rw [heq, List.append_assoc, List.cons_append])
    · exact h ts t [] rfl ((unanswered_iff _ t).2 hnone)

theorem Staged.no_payload {tr : List Event} {g : Globals} (h : Staged tr g) (hhold : Holds tr g)
    (hnone : lastRequest tr = none) {m : Message} (hm : lastResponse tr = some m) : m.payload = [] := by
  have hfirst := h.response 0
  rw [miniIcsGetResponsePayloadByte, hhold.response, hm, hnone] at hfirst
  cases hp : m.payload with
  | nil       => rfl
  | cons b bs =>
    rw [Option.map_some, Option.getD_some, hp] at hfirst
    cases hfirst

/-- **In every state of a run the accessors give back the bytes of the latest poll and of the response to the latest
request, exactly if no request without a response comes while the latest response before it had a payload.** -/
theorem staging_iff (ts : List Turn) :
    (∀ pre post, ts = pre ++ post → Staged (outputs stage {} pre) (after stage {} pre)) ↔
      ∀ pre t post, ts = pre ++ t :: post → Unanswered (after stage {} pre) t →
        ∀ m, lastResponse (outputs stage {} pre) = some m → m.payload = [] := by
  constructor
  · intro h pre t post heq hun m hm
    rw [unanswered_iff] at hun
    -- right after the call the first byte of the earlier response is still there
    have hstaged := h (pre ++ [t]) post (by rw [heq, List.append_assoc, List.singleton_append])
    have hholds := holds_after (pre ++ [t])
    have hopen := Event.open_of_requested hun
    rw [outputs_append, outputs_singleton] at hstaged hholds
    refine hstaged.no_payload hholds ?_ ?_
    · rw [lastRequest_concat _ _ hopen, hun]
      rfl
    · rw [lastResponse_concat _ _ hopen, hun]
      exact hm
  · intro h pre post heq
    refine (fresh_outputs pre (fun pre' t post' heq' => ?_)).staged (holds_after pre)
    exact h pre' t (post' ++ post) (by rw [heq, heq', List.append_assoc, List.cons_append])

/-- A DMA read is answered with four bytes; after the interrupt that follows they are still there. -/
theorem stale_response :
    let rsp : Message := ⟨makeHeader .dmaReadRsp 1 0x1000 0 .success 0 4 kFlagIsResponse, [0xde, 0xad, 0xbe, 0xef]⟩
    let tx : List TxTurn := [⟨[.revents false false false true], .wrote 64⟩]
    let ts : List Turn := [{ call := .init false true },
      { call := .sendRequest { msgType := 7, address := 0x1000, length := 4 } { tx, answer := some rsp } },
      { call := .sendRequest { msgType := 11 } { tx } }]
    lastRequest (outputs stage {} ts) = none ∧
      miniIcsGetResponsePayloadByte (after stage {} ts) 0 false = (0, some 0xde) ∧
      ¬ ∀ pre post, ts = pre ++ post → Staged (outputs stage {} pre) (after stage {} pre) := by
  intro rsp tx ts
  have hnone : lastRequest (outputs stage {} ts) = none := by decide +kernel
  have hbyte : miniIcsGetResponsePayloadByte (after stage {} ts) 0 false = (0, some 0xde) := by decide +kernel
  refine ⟨hnone, hbyte, fun h => ?_⟩
  have hstaged := (h ts [] (List.append_nil ts).symm).response 0
  rw [hbyte, hnone] at hstaged
  cases hstaged

end Dpi
end Vip
