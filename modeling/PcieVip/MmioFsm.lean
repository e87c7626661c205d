import PcieVip.AlexTop
import PcieVip.LibServe
/-!
# MmioFsm — the state machine of `alex_qemu_verilator_top`, clock by clock

`AlexTop` has this machine a request at a time, over a bus that answers.  Here it is clocked, and the bus may do
anything: take a TLP late or never, answer a write or a read at any time or not at all.  Requests and responses still
alternate, and the TLPs between them are those of the request, in order (`fsm_exchanges`).
-/
namespace Vip
namespace Alex

open Serve Word

/-! ## The clocked process -/

inductive FsmState where
  | idle | send | handshake | writeWait | readWait | response
  deriving DecidableEq, Repr

structure Fsm where
  state          : FsmState := .idle
  reqWrite       : Bool := false
  reqAddr        : BitVec 64 := 0
  reqData        : BitVec 64 := 0
  reqLen         : BitVec 4 := 0
  offset         : BitVec 4 := 0
  chunkLen       : BitVec 4 := 0
  responseData   : BitVec 64 := 0
  responseStatus : BitVec 2 := 0
  timeoutCount   : BitVec 8 := 0
  tlpHdr         : BitVec 128 := 0
  tlpData        : BitVec 256 := 0
  /-- `rx_req_tlp_valid`, with `sop` and `eop`, which are assigned with it. -/
  tlpValid       : Bool := false
  rspValid       : Bool := false
  rspData        : BitVec 64 := 0
  rspStatus      : BitVec 2 := 0
  deriving DecidableEq, Repr

/-- The inputs but for the reset: the request port, and what the endpoint drives. -/
structure Fsm.Pins where
  reqValid : Bool := false
  reqWrite : Bool := false
  reqAddr  : BitVec 64 := 0
  reqLen   : BitVec 4 := 0
  reqData  : BitVec 64 := 0
  tlpReady : Bool := false
  bvalid   : Bool := false
  bready   : Bool := false
  bresp    : BitVec 2 := 0
  cplValid : Bool := false
  cplHdr   : BitVec 128 := 0
  cplData  : BitVec 256 := 0
  deriving DecidableEq, Repr

def makeHdr (isWrite : Bool) (address : BitVec 64) (length : BitVec 4) (tag : BitVec 8) : BitVec 128 :=
  let be := byteEnable (address.toNat % 4) length.toNat
  (if isWrite then 2#3 else 0#3) ++ 0#19 ++ 1#10 ++ 0#16 ++ tag ++ be ++ be ++ address.extractLsb' 2 30 ++ 0#34

namespace Fsm

def reqReady (s : Fsm) : Bool := s.state = .idle && !s.rspValid

/-- What is left of a request, cut at a DW; the subtraction is 32 bits wide. -/
def chunkOf (len offset : BitVec 4) : BitVec 4 :=
  let left := len.setWidth 32 - offset.setWidth 32
  if 4#32 ≤ left then 4 else left.setWidth 4

def nextChunk (s : Fsm) : BitVec 4 := chunkOf s.reqLen s.offset

/-- `ST_WRITE_WAIT` and `ST_READ_WAIT` after 100 cycles, and before. -/
def wait (s : Fsm) : Fsm :=
  if s.timeoutCount = 100 then { s with rspStatus := 3, rspValid := true, state := .response }
  else { s with timeoutCount := s.timeoutCount + 1 }

def clock (s : Fsm) (i : Pins) : Fsm :=
  let t := if s.rspValid then { s with rspValid := false } else s
  match s.state with
  | .idle      =>
    if i.reqValid && s.reqReady then
      if i.reqLen = 0 ∨ i.reqLen > 8 ∨ (i.reqLen ≠ 1 ∧ i.reqLen ≠ 2 ∧ i.reqLen ≠ 4 ∧ i.reqLen ≠ 8) then
        { t with rspData := 0, rspStatus := 3, rspValid := true }
      else
        { t with reqWrite := i.reqWrite, reqAddr := i.reqAddr, reqLen := i.reqLen, reqData := i.reqData, offset := 0,
                 responseData := 0, responseStatus := 0, timeoutCount := 0, state := .send }
    else t
  | .send      =>
    { t with chunkLen := s.nextChunk
             tlpHdr := makeHdr s.reqWrite (s.reqAddr + s.offset.setWidth 64) s.nextChunk (s.offset.setWidth 8 + 1)
             tlpData := (if s.offset = 0 then lo s.reqData else hi s.reqData).setWidth 256
             tlpValid := true, timeoutCount := 0, state := .handshake }
  | .handshake =>
    if i.tlpReady then { t with tlpValid := false, state := if s.reqWrite then .writeWait else .readWait } else t
  | .writeWait =>
    if i.bvalid && i.bready then
      let status := if i.bresp ≠ 0 then 3 else s.responseStatus
      if s.offset + s.chunkLen < s.reqLen then
        { t with responseStatus := status, offset := s.offset + s.chunkLen, state := .send }
      else
        { t with responseStatus := status, rspData := 0
                 rspStatus := if i.bresp = 0 ∧ s.responseStatus = 0 then 0 else 3
                 rspValid := true, state := .response }
    else t.wait
  | .readWait  =>
    if i.cplValid then
      let bad := i.cplHdr.extractLsb' 45 3 ≠ 0
      let status := if bad then 3 else s.responseStatus
      let data := if s.offset = 0 then join (hi s.responseData) (i.cplData.setWidth 32)
        else join (i.cplData.setWidth 32) (lo s.responseData)
      if s.offset + s.chunkLen < s.reqLen then
        { t with responseStatus := status, responseData := data, offset := s.offset + s.chunkLen, state := .send }
      else
        { t with responseStatus := status, responseData := data
                 rspData := if s.offset = 0 then (i.cplData.setWidth 32).setWidth 64
                   else join (i.cplData.setWidth 32) (lo s.responseData)
                 rspStatus := if ¬ bad ∧ s.responseStatus = 0 then 0 else 3
                 rspValid := true, state := .response }
    else t.wait
  | .response  => { t with state := .idle }

/-- The reset leaves the request and TLP registers alone. -/
def edge (s : Fsm) (rst : Bool) (i : Pins) : Fsm :=
  if rst then
    { s with state := .idle, tlpValid := false, rspValid := false, rspData := 0, rspStatus := 0, timeoutCount := 0 }
  else s.clock i

/-! ## What is seen of it -/

inductive Event where
  | request (q : Req)
  | tlp (hdr : BitVec 128) (data : BitVec 256)
  | response (status : BitVec 2) (data : BitVec 64)

/-- The events of a cycle: a response that is shown, a request that is accepted, a TLP that is taken. -/
def events (s : Fsm) (i : Pins) : List Event :=
  (if s.rspValid then [.response s.rspStatus s.rspData] else []) ++
  (if i.reqValid && s.reqReady then [.request ⟨i.reqWrite, i.reqAddr, i.reqLen.toNat, i.reqData⟩] else []) ++
  (if s.tlpValid && i.tlpReady then [.tlp s.tlpHdr s.tlpData] else [])

def step (s : Fsm) (i : Pins) : Fsm × List Event := (s.clock i, s.events i)

def tlpOf (hdr : BitVec 128) (data : BitVec 256) : Tlp :=
  ⟨hdr.extractLsb' 125 3 = 2, hdr.extractLsb' 68 4, hdr.extractLsb' 34 30, data.setWidth 32⟩

end Fsm

def Req.chunks (q : Req) : Nat := (q.length + 3) / 4

/-- The first TLPs of a request, in order: at its address, and four bytes further. -/
def Req.firstTlps (q : Req) (n : Nat) : List Tlp := (List.range n).map (fun k => q.tlp (4 * k))

def Req.tlps (q : Req) : List Tlp := q.firstTlps q.chunks

namespace Fsm

/-! ## The TLP that is sent -/

theorem tlpOf_makeHdr (isWrite : Bool) (address : BitVec 64) (length : BitVec 4) (tag : BitVec 8) (v : BitVec 32) :
    tlpOf (makeHdr isWrite address length tag) (v.setWidth 256) = makeTlp isWrite address length.toNat v := by
  unfold tlpOf makeHdr makeTlp
  dsimp only
  rw [Tlp.mk.injEq]
  refine ⟨?_, ?_, ?_, ?_⟩
  · repeat rw [BitVec.extractLsb'_append_eq_of_le (by decide)]
    cases isWrite <;> decide
  · rw [BitVec.extractLsb'_append_eq_of_le (by decide), BitVec.extractLsb'_append_eq_of_le (by decide),
      BitVec.extractLsb'_append_eq_of_le (by decide), BitVec.extractLsb'_append_eq_of_add_le (by decide),
      BitVec.extractLsb'_eq_self]
  · rw [BitVec.extractLsb'_append_eq_of_le (by decide), BitVec.extractLsb'_append_eq_of_add_le (by decide),
      BitVec.extractLsb'_eq_self]
  · rw [BitVec.setWidth_setWidth_of_le _ (by decide), BitVec.setWidth_eq]

/-- Where in a request the machine may be: its length and the offset. -/
def places : List (BitVec 4 × BitVec 4) := [(1, 0), (2, 0), (4, 0), (8, 0), (8, 4)]

structure Loaded (s : Fsm) (q : Req) : Prop where
  write : s.reqWrite = q.write
  addr  : s.reqAddr = q.address
  data  : s.reqData = q.data
  len   : s.reqLen.toNat = q.length
  place : (s.reqLen, s.offset) ∈ places

section Loaded

variable {s : Fsm} {q : Req}

theorem places_chunk : ∀ p ∈ places, (chunkOf p.1 p.2).toNat = Alex.chunkLen p.1.toNat p.2.toNat ∧
    (p.2 + chunkOf p.1 p.2 < p.1 → (p.1, p.2 + chunkOf p.1 p.2) ∈ places ∧
      (p.2 + chunkOf p.1 p.2).toNat / 4 = p.2.toNat / 4 + 1) ∧
    (¬ p.2 + chunkOf p.1 p.2 < p.1 → p.2.toNat / 4 + 1 = (p.1.toNat + 3) / 4) := by decide +kernel

theorem Loaded.tlp (h : Loaded s q) :
    tlpOf (makeHdr s.reqWrite (s.reqAddr + s.offset.setWidth 64) s.nextChunk (s.offset.setWidth 8 + 1))
      ((if s.offset = 0 then lo s.reqData else hi s.reqData).setWidth 256) = q.tlp s.offset.toNat := by
  have hoff : (s.offset = 0) ↔ (s.offset.toNat = 0) := by
    rw [← BitVec.toNat_inj]
    rfl
  rw [tlpOf_makeHdr, nextChunk, (places_chunk _ h.place).1, h.write, h.addr, h.data, h.len, Req.tlp]
  congr 1
  · congr 1
    exact BitVec.ofNat_toNat 64 s.offset ▸ rfl
  · simp only [hoff]

theorem Loaded.mem_lengths (h : Loaded s q) : q.length ∈ lengths := by
  have hall : ∀ p ∈ places, p.1.toNat ∈ lengths := by decide +kernel
  rw [← h.len]
  exact hall _ h.place

theorem Loaded.goesOn (h : Loaded s q) (hc : s.chunkLen = s.nextChunk) (hlt : s.offset + s.chunkLen < s.reqLen) :
    (s.reqLen, s.offset + s.chunkLen) ∈ places ∧ (s.offset + s.chunkLen).toNat / 4 = s.offset.toNat / 4 + 1 := by
  rw [hc, nextChunk] at hlt ⊢
  exact (places_chunk _ h.place).2.1 hlt

theorem Loaded.ends (h : Loaded s q) (hc : s.chunkLen = s.nextChunk) (hlt : ¬ s.offset + s.chunkLen < s.reqLen) :
    s.offset.toNat / 4 + 1 = q.chunks := by
  rw [hc, nextChunk] at hlt
  rw [Req.chunks, ← h.len]
  exact (places_chunk _ h.place).2.2 hlt

theorem Loaded.within (h : Loaded s q) : s.offset.toNat / 4 + 1 ≤ q.chunks := by
  have hall : ∀ p ∈ places, p.2.toNat / 4 + 1 ≤ (p.1.toNat + 3) / 4 := by decide +kernel
  rw [Req.chunks, ← h.len]
  exact hall _ h.place

end Loaded

theorem firstTlps_succ (q : Req) (n : Nat) : q.firstTlps (n + 1) = q.firstTlps n ++ [q.tlp (4 * n)] := by
  simp [Req.firstTlps, List.range_succ]

theorem firstTlps_prefix (q : Req) {n m : Nat} (h : n ≤ m) : q.firstTlps n <+: q.firstTlps m := by
  obtain ⟨k, rfl⟩ := Nat.exists_eq_add_of_le h
  rw [Req.firstTlps, Req.firstTlps, List.range_add, List.map_append]
  exact List.prefix_append _ _

/-! ## Exchanges -/

abbrev Beat := BitVec 128 × BitVec 256

def tlpsOf (ts : List Beat) : List Tlp := ts.map (fun t => tlpOf t.1 t.2)

/-- A request with its TLPs and its response. -/
structure Exchange where
  req    : Req
  tlps   : List Beat
  status : BitVec 2
  data   : BitVec 64

def sent (ts : List Beat) : List Event := ts.map (fun t => .tlp t.1 t.2)

def Exchange.events (e : Exchange) : List Event := .request e.req :: (sent e.tlps ++ [.response e.status e.data])

def pending : Option (Req × List Beat) → List Event
  | none         => []
  | some (q, ts) => .request q :: sent ts

/-- A bad length takes no TLP and an error; any other request takes its own TLPs in order, and all of them if it
succeeds. -/
structure Exchange.Good (e : Exchange) : Prop where
  refused : e.req.length ∉ lengths → e.tlps = [] ∧ e.status ≠ 0
  order   : e.req.length ∈ lengths → tlpsOf e.tlps <+: e.req.tlps
  whole   : e.req.length ∈ lengths → e.status = 0 → tlpsOf e.tlps = e.req.tlps

/-- What the events of a cycle make of the pending request. -/
inductive Moves : Option (Req × List Beat) → List Event → Option (Req × List Beat) → Option Exchange → Prop
  | quiet (cur) : Moves cur [] cur none
  | request (q : Req) : Moves none [.request q] (some (q, [])) none
  | tlp (q : Req) (ts : List Beat) (hdr : BitVec 128) (data : BitVec 256) :
      Moves (some (q, ts)) [.tlp hdr data] (some (q, ts ++ [(hdr, data)])) none
  | response (q : Req) (ts : List Beat) (status : BitVec 2) (data : BitVec 64) :
      Moves (some (q, ts)) [.response status data] none (some ⟨q, ts, status, data⟩)

theorem Moves.trace {cur cur' : Option (Req × List Beat)} {es : List Event} {fin : Option Exchange}
    (h : Moves cur es cur' fin) (done : List Exchange) :
    done.flatMap Exchange.events ++ pending cur ++ es =
      (done ++ fin.toList).flatMap Exchange.events ++ pending cur' := by
  cases h <;> simp [pending, sent, Exchange.events]

/-- Where the machine is, and the pending request with the TLPs that were taken. -/
inductive Phase (s : Fsm) : Option (Req × List Tlp) → Prop
  | idle (hs : s.state = .idle) (hr : s.rspValid = false) (ht : s.tlpValid = false) : Phase s none
  | refused (q : Req) (hs : s.state = .idle) (hr : s.rspValid = true) (ht : s.tlpValid = false)
      (hlen : q.length ∉ lengths) (hst : s.rspStatus ≠ 0) : Phase s (some (q, []))
  | send (q : Req) (hs : s.state = .send) (hr : s.rspValid = false) (ht : s.tlpValid = false) (hl : Loaded s q) :
      Phase s (some (q, q.firstTlps (s.offset.toNat / 4)))
  | handshake (q : Req) (hs : s.state = .handshake) (hr : s.rspValid = false) (ht : s.tlpValid = true)
      (hl : Loaded s q) (hc : s.chunkLen = s.nextChunk) (htlp : tlpOf s.tlpHdr s.tlpData = q.tlp s.offset.toNat) :
      Phase s (some (q, q.firstTlps (s.offset.toNat / 4)))
  | wait (q : Req) (hs : s.state = .writeWait ∨ s.state = .readWait) (hr : s.rspValid = false)
      (ht : s.tlpValid = false) (hl : Loaded s q) (hc : s.chunkLen = s.nextChunk) :
      Phase s (some (q, q.firstTlps (s.offset.toNat / 4 + 1)))
  | response (q : Req) (ts : List Tlp) (hs : s.state = .response) (hr : s.rspValid = true) (ht : s.tlpValid = false)
      (hlen : q.length ∈ lengths) (hp : ts <+: q.tlps) (hd : s.rspStatus = 0 → ts = q.tlps) : Phase s (some (q, ts))

def seen (cur : Option (Req × List Beat)) : Option (Req × List Tlp) := cur.map (fun p => (p.1, tlpsOf p.2))

/-- What one clock edge does: its events, the request pending after it, and the exchange that ends. -/
def Steps (s : Fsm) (i : Pins) (cur : Option (Req × List Beat)) : Prop :=
  ∃ cur' fin, Moves cur (s.events i) cur' fin ∧ (∀ e ∈ fin, Exchange.Good e) ∧ Phase (s.clock i) (seen cur')

section Edge

variable {s : Fsm} {i : Pins}

theorem events_of_quiet (hr : s.rspValid = false) (hi : s.state ≠ .idle) (ht : s.tlpValid = false) :
    s.events i = [] := by
  simp [events, reqReady, hr, hi, ht]

theorem badLen_iff : ∀ len : BitVec 4,
    (len = 0 ∨ len > 8 ∨ (len ≠ 1 ∧ len ≠ 2 ∧ len ≠ 4 ∧ len ≠ 8)) ↔ len.toNat ∉ lengths := by decide

theorem mem_places_zero : ∀ len : BitVec 4, len.toNat ∈ lengths → (len, 0) ∈ places := by decide

theorem steps_idle (hs : s.state = .idle) (hr : s.rspValid = false) (ht : s.tlpValid = false) : Steps s i none := by
  have hready : s.reqReady = true := by simp [reqReady, hs, hr]
  cases hv : i.reqValid with
  | false =>
    refine ⟨none, none, ?_, nofun, ?_⟩
    · have : s.events i = [] := by simp [events, hr, hv, ht]
      rw [this]
      exact .quiet none
    · have : s.clock i = s := by simp [clock, hs, hv, hr]
      rw [this]
      exact .idle hs hr ht
  | true =>
    let q : Req := ⟨i.reqWrite, i.reqAddr, i.reqLen.toNat, i.reqData⟩
    have hev : s.events i = [.request q] := by simp [events, hr, hv, hready, ht, q]
    refine ⟨some (q, []), none, ?_, nofun, ?_⟩
    · rw [hev]
      exact .request q
    by_cases hlen : i.reqLen.toNat ∈ lengths
    · have hclock : s.clock i = { s with reqWrite := i.reqWrite, reqAddr := i.reqAddr, reqLen := i.reqLen,
                                         reqData := i.reqData, offset := 0, responseData := 0, responseStatus := 0,
                                         timeoutCount := 0, state := .send } := by
        simp only [clock, hs, hv, hready, hr, Bool.and_self, if_true, Bool.false_eq_true, if_false, badLen_iff,
          hlen, not_true_eq_false]
      rw [hclock]
      change Phase _ (some (q, q.firstTlps ((0 : BitVec 4).toNat / 4)))
      refine .send q rfl ?_ ?_ ⟨rfl, rfl, rfl, rfl, mem_places_zero _ hlen⟩
      · exact hr
      · exact ht
    · have hclock : s.clock i = { s with rspData := 0, rspStatus := 3, rspValid := true } := by
        simp only [clock, hs, hv, hready, hr, Bool.and_self, if_true, Bool.false_eq_true, if_false, badLen_iff,
          hlen, not_false_eq_true]
      rw [hclock]
      exact .refused q hs rfl ht hlen (show (3 : BitVec 2) ≠ 0 by decide)

theorem steps_refused (q : Req) (hs : s.state = .idle) (hr : s.rspValid = true) (ht : s.tlpValid = false)
    (hlen : q.length ∉ lengths) (hst : s.rspStatus ≠ 0) : Steps s i (some (q, [])) := by
  have hev : s.events i = [.response s.rspStatus s.rspData] := by simp [events, reqReady, hr, ht]
  have hclock : s.clock i = { s with rspValid := false } := by simp [clock, hs, hr, reqReady]
  refine ⟨none, some ⟨q, [], s.rspStatus, s.rspData⟩, ?_, ?_, ?_⟩
  · rw [hev]
    exact .response q [] _ _
  · rintro e ⟨⟩
    exact ⟨fun _ => ⟨rfl, hst⟩, fun h => absurd h hlen, fun h => absurd h hlen⟩
  · rw [hclock]
    exact .idle hs rfl ht

theorem steps_send {q : Req} {ts : List Beat} (hts : tlpsOf ts = q.firstTlps (s.offset.toNat / 4))
    (hs : s.state = .send) (hr : s.rspValid = false) (ht : s.tlpValid = false) (hl : Loaded s q) :
    Steps s i (some (q, ts)) := by
  refine ⟨some (q, ts), none, ?_, nofun, ?_⟩
  · rw [events_of_quiet hr (by rw [hs]; nofun) ht]
    exact .quiet _
  · have hclock : s.clock i =
        { s with chunkLen := s.nextChunk
                 tlpHdr := makeHdr s.reqWrite (s.reqAddr + s.offset.setWidth 64) s.nextChunk (s.offset.setWidth 8 + 1)
                 tlpData := (if s.offset = 0 then lo s.reqData else hi s.reqData).setWidth 256
                 tlpValid := true, timeoutCount := 0, state := .handshake } := by
      simp only [clock, hs, hr, Bool.false_eq_true, if_false]
    rw [hclock, seen, Option.map_some, hts]
    exact .handshake q rfl hr rfl ⟨hl.write, hl.addr, hl.data, hl.len, hl.place⟩ rfl hl.tlp

theorem steps_handshake {q : Req} {ts : List Beat} (hts : tlpsOf ts = q.firstTlps (s.offset.toNat / 4))
    (hs : s.state = .handshake) (hr : s.rspValid = false) (ht : s.tlpValid = true) (hl : Loaded s q)
    (hc : s.chunkLen = s.nextChunk) (htlp : tlpOf s.tlpHdr s.tlpData = q.tlp s.offset.toNat) :
    Steps s i (some (q, ts)) := by
  cases hready : i.tlpReady with
  | false =>
    have hev : s.events i = [] := by simp [events, reqReady, hr, hs, hready]
    have hclock : s.clock i = s := by simp [clock, hs, hr, hready]
    refine ⟨some (q, ts), none, ?_, nofun, ?_⟩
    · rw [hev]
      exact .quiet _
    · rw [hclock, seen, Option.map_some, hts]
      exact .handshake q hs hr ht hl hc htlp
  | true =>
    have hev : s.events i = [.tlp s.tlpHdr s.tlpData] := by simp [events, reqReady, hr, hs, ht, hready]
    have hclock : s.clock i =
        { s with tlpValid := false, state := if s.reqWrite then .writeWait else .readWait } := by
      simp only [clock, hs, hr, hready, Bool.false_eq_true, if_false, if_true]
    have hoff : 4 * (s.offset.toNat / 4) = s.offset.toNat := by
      have hall : ∀ p ∈ places, 4 * (p.2.toNat / 4) = p.2.toNat := by decide +kernel
      exact hall _ hl.place
    have hseen : tlpsOf (ts ++ [(s.tlpHdr, s.tlpData)]) = q.firstTlps (s.offset.toNat / 4 + 1) := by
      rw [firstTlps_succ, hoff, ← htlp, ← hts]
      exact List.map_append
    refine ⟨some (q, ts ++ [(s.tlpHdr, s.tlpData)]), none, ?_, nofun, ?_⟩
    · rw [hev]
      exact .tlp q ts _ _
    · rw [hclock, seen, Option.map_some, hseen]
      refine .wait q ?_ hr rfl ⟨hl.write, hl.addr, hl.data, hl.len, hl.place⟩ hc
      cases s.reqWrite
      · exact .inr rfl
      · exact .inl rfl

theorem steps_response {q : Req} {ts : List Beat} (hs : s.state = .response) (hr : s.rspValid = true)
    (ht : s.tlpValid = false) (hlen : q.length ∈ lengths) (hp : tlpsOf ts <+: q.tlps)
    (hd : s.rspStatus = 0 → tlpsOf ts = q.tlps) : Steps s i (some (q, ts)) := by
  have hev : s.events i = [.response s.rspStatus s.rspData] := by simp [events, reqReady, hr, ht]
  have hclock : s.clock i = { s with rspValid := false, state := .idle } := by simp [clock, hs, hr]
  refine ⟨none, some ⟨q, ts, s.rspStatus, s.rspData⟩, ?_, ?_, ?_⟩
  · rw [hev]
    exact .response q ts _ _
  · rintro e ⟨⟩
    exact ⟨fun h => absurd hlen h, fun _ => hp, fun _ => hd⟩
  · rw [hclock]
    exact .idle rfl rfl ht

theorem clock_wait (hs : s.state = .writeWait ∨ s.state = .readWait) (hr : s.rspValid = false) :
    (∃ st d, s.offset + s.chunkLen < s.reqLen ∧ s.clock i =
        { s with responseStatus := st, responseData := d, offset := s.offset + s.chunkLen, rspValid := false,
                 state := .send }) ∨
      (∃ st d rd rs, ¬ s.offset + s.chunkLen < s.reqLen ∧ s.clock i =
        { s with responseStatus := st, responseData := d, rspData := rd, rspStatus := rs, rspValid := true,
                 state := .response }) ∨
      s.clock i = { s with rspStatus := 3, rspValid := true, state := .response } ∨
      s.clock i = { s with timeoutCount := s.timeoutCount + 1 } := by
  have hwait : s.wait = { s with rspStatus := 3, rspValid := true, state := .response } ∨
      s.wait = { s with timeoutCount := s.timeoutCount + 1 } := by
    unfold wait
    split
    · exact .inl rfl
    · exact .inr rfl
  generalize hc : s.clock i = c
  rcases hs with hs | hs
  · simp only [clock, hs, hr, Bool.false_eq_true, if_false] at hc
    split at hc
    · split at hc
      · exact .inl ⟨_, s.responseData, ‹_›, hc.symm⟩
      · exact .inr (.inl ⟨_, s.responseData, _, _, ‹_›, hc.symm⟩)
    · rw [← hc]
      exact .inr (.inr hwait)
  · simp only [clock, hs, hr, Bool.false_eq_true, if_false] at hc
    split at hc
    · split at hc
      · exact .inl ⟨_, _, ‹_›, hc.symm⟩
      · exact .inr (.inl ⟨_, _, _, _, ‹_›, hc.symm⟩)
    · rw [← hc]
      exact .inr (.inr hwait)

theorem steps_wait {q : Req} {ts : List Beat} (hts : tlpsOf ts = q.firstTlps (s.offset.toNat / 4 + 1))
    (hs : s.state = .writeWait ∨ s.state = .readWait) (hr : s.rspValid = false) (ht : s.tlpValid = false)
    (hl : Loaded s q) (hc : s.chunkLen = s.nextChunk) : Steps s i (some (q, ts)) := by
  have hidle : s.state ≠ .idle := by
    rcases hs with hs | hs <;> rw [hs] <;> nofun
  refine ⟨some (q, ts), none, ?_, nofun, ?_⟩
  · rw [events_of_quiet hr hidle ht]
    exact .quiet _
  rw [seen, Option.map_some]
  rcases clock_wait (i := i) hs hr with ⟨st, d, hlt, hclock⟩ | ⟨st, d, rd, rs, hlt, hclock⟩ | hclock | hclock
  · obtain ⟨hplace, hoff⟩ := hl.goesOn hc hlt
    rw [hclock, hts, ← hoff]
    refine .send q rfl rfl ?_ ⟨hl.write, hl.addr, hl.data, hl.len, hplace⟩
    exact ht
  · rw [hclock]
    refine .response q _ rfl rfl ht hl.mem_lengths ?_ ?_
    · rw [hts, hl.ends hc hlt]
      exact List.prefix_rfl
    · intro _
      rw [hts, hl.ends hc hlt]
      rfl
  · rw [hclock]
    refine .response q _ rfl rfl ht hl.mem_lengths ?_ (fun h => absurd h (show (3 : BitVec 2) ≠ 0 by decide))
    rw [hts]
    exact firstTlps_prefix q hl.within
  · rw [hclock, hts]
    refine .wait q hs hr ht ⟨hl.write, hl.addr, hl.data, hl.len, hl.place⟩ hc

/-- **One clock edge**, from any phase. -/
theorem Phase.steps {cur : Option (Req × List Beat)} (h : Phase s (seen cur)) (i : Pins) : Steps s i cur := by
  cases cur with
  | none =>
    generalize hx : seen none = x at h
    cases h with
    | idle hs hr ht => exact steps_idle hs hr ht
    | _ => cases hx
  | some p =>
    obtain ⟨q, ts⟩ := p
    generalize hx : seen (some (q, ts)) = x at h
    cases h with
    | idle hs hr ht => cases hx
    | refused q' hs hr ht hlen hst =>
      obtain ⟨rfl, hts⟩ := Prod.mk.inj (Option.some.inj hx)
      obtain rfl := List.map_eq_nil_iff.1 hts
      exact steps_refused q hs hr ht hlen hst
    | send q' hs hr ht hl =>
      obtain ⟨rfl, hts⟩ := Prod.mk.inj (Option.some.inj hx)
      exact steps_send hts hs hr ht hl
    | handshake q' hs hr ht hl hc htlp =>
      obtain ⟨rfl, hts⟩ := Prod.mk.inj (Option.some.inj hx)
      exact steps_handshake hts hs hr ht hl hc htlp
    | wait q' hs hr ht hl hc =>
      obtain ⟨rfl, hts⟩ := Prod.mk.inj (Option.some.inj hx)
      exact steps_wait hts hs hr ht hl hc
    | response q' ts' hs hr ht hlen hp hd =>
      obtain ⟨rfl, rfl⟩ := Prod.mk.inj (Option.some.inj hx)
      exact steps_response hs hr ht hlen hp hd

theorem Phase.pulse {x : Option (Req × List Tlp)} (h : Phase s x) (i : Pins) (hv : s.rspValid = true) :
    (s.clock i).rspValid = false := by
  cases h with
  | refused q hs hr ht hlen hst => simp [clock, hs, hr, reqReady]
  | response q ts hs hr ht hlen hp hd => simp [clock, hs, hr]
  | idle hs hr ht => rw [hr] at hv; cases hv
  | send q hs hr ht hl => rw [hr] at hv; cases hv
  | handshake q hs hr ht hl hc htlp => rw [hr] at hv; cases hv
  | wait q hs hr ht hl hc => rw [hr] at hv; cases hv

theorem Phase.stable {x : Option (Req × List Tlp)} (h : Phase s x) (i : Pins) (hv : s.tlpValid = true)
    (hready : i.tlpReady = false) :
    (s.clock i).tlpValid = true ∧ (s.clock i).tlpHdr = s.tlpHdr ∧ (s.clock i).tlpData = s.tlpData := by
  cases h with
  | handshake q hs hr ht hl hc htlp =>
    have hclock : s.clock i = s := by simp [clock, hs, hr, hready]
    rw [hclock]
    exact ⟨hv, rfl, rfl⟩
  | idle hs hr ht => rw [ht] at hv; cases hv
  | refused q hs hr ht hlen hst => rw [ht] at hv; cases hv
  | send q hs hr ht hl => rw [ht] at hv; cases hv
  | wait q hs hr ht hl hc => rw [ht] at hv; cases hv
  | response q ts hs hr ht hlen hp hd => rw [ht] at hv; cases hv

theorem Phase.pending_prefix {q : Req} {ts : List Tlp} (h : Phase s (some (q, ts))) :
    (q.length ∉ lengths → ts = []) ∧ ts <+: q.tlps := by
  cases h with
  | refused _ hs hr ht hlen hst => exact ⟨fun _ => rfl, List.nil_prefix⟩
  | send _ hs hr ht hl =>
    exact ⟨fun h => absurd hl.mem_lengths h, firstTlps_prefix q (Nat.le_of_succ_le hl.within)⟩
  | handshake _ hs hr ht hl hc htlp =>
    exact ⟨fun h => absurd hl.mem_lengths h, firstTlps_prefix q (Nat.le_of_succ_le hl.within)⟩
  | wait _ hs hr ht hl hc => exact ⟨fun h => absurd hl.mem_lengths h, firstTlps_prefix q hl.within⟩
  | response _ _ hs hr ht hlen hp hd => exact ⟨fun h => absurd hlen h, hp⟩

end Edge

/-! ## Runs -/

/-- The trace is exchanges that are over and one that is pending. -/
def Kept (o : List (List Event)) (s : Fsm) : Prop :=
  ∃ (done : List Exchange) (cur : Option (Req × List Beat)),
    o.flatten = done.flatMap Exchange.events ++ pending cur ∧ (∀ e ∈ done, Exchange.Good e) ∧ Phase s (seen cur)

theorem Kept.clock {o : List (List Event)} {s : Fsm} (h : Kept o s) (i : Pins) :
    Kept (o ++ [s.events i]) (s.clock i) := by
  obtain ⟨done, cur, htrace, hgood, hphase⟩ := h
  obtain ⟨cur', fin, hmoves, hfin, hphase'⟩ := hphase.steps i
  refine ⟨done ++ fin.toList, cur', ?_, ?_, hphase'⟩
  · rw [List.flatten_append, htrace, List.flatten_singleton, hmoves.trace]
  · intro e he
    rcases List.mem_append.1 he with h | h
    · exact hgood e h
    · exact hfin e (Option.mem_toList.1 h)

/-- **Requests and responses alternate.**  After a reset, whatever the pins do while it is low, the events are
exchanges: a request, its TLPs and its response, in this order, with at most one exchange that is not over.  A bad
length takes no TLP and an error; any other request takes a TLP for each DW, in order, at its address and four bytes
further, as far as bits 31 to 2 of the address go, and all of them before it succeeds.  A response is shown for one
cycle, and a TLP stands until it is taken. -/
theorem fsm_exchanges (s₀ : Fsm) (i₀ : Pins) (is : List Pins) :
    let start := s₀.edge true i₀
    let s := after step start is
    (∃ (done : List Exchange) (cur : Option (Req × List Beat)),
        (outputs step start is).flatten = done.flatMap Exchange.events ++ pending cur ∧ (∀ e ∈ done, Exchange.Good e) ∧
        ∀ q ts, cur = some (q, ts) → (q.length ∉ lengths → ts = []) ∧ tlpsOf ts <+: q.tlps) ∧
      (∀ i, s.rspValid = true → (s.clock i).rspValid = false) ∧
      (∀ i, s.tlpValid = true → i.tlpReady = false →
        (s.clock i).tlpValid = true ∧ (s.clock i).tlpHdr = s.tlpHdr ∧ (s.clock i).tlpData = s.tlpData) := by
  intro start s
  have hnil : Kept [] start := ⟨[], none, rfl, fun _ h => (by cases h), .idle rfl rfl rfl⟩
  obtain ⟨done, cur, htrace, hgood, hphase⟩ : Kept (outputs step start is) s :=
    trace_invariant (I := Kept) (fun _ _ i h => h.clock i) is [] start hnil
  refine ⟨⟨done, cur, htrace, hgood, ?_⟩, fun i hv => hphase.pulse i hv, fun i hv hr => hphase.stable i hv hr⟩
  rintro q ts rfl
  obtain ⟨hnone, hpre⟩ := hphase.pending_prefix
  exact ⟨fun h => List.map_eq_nil_iff.1 (hnone h), hpre⟩

/-- Four bytes above 4 GiB: the header has three DWs, and the TLP goes to the address below. -/
theorem fsm_high_address :
    let q : Req := ⟨true, 0x100000024, 4, 0⟩
    let is : List Pins :=
      [{ reqValid := true, reqWrite := true, reqAddr := q.address, reqLen := 4 }, {}, { tlpReady := true }]
    ∃ hdr data, (outputs step (edge {} true {}) is).flatten = [.request q, .tlp hdr data] ∧
      (tlpOf hdr data).dwAddress = 0x24 ∧ (tlpOf hdr data).dwAddress ≠ q.address := by
  refine ⟨makeHdr true 0x100000024 4 1, 0, rfl, ?_, ?_⟩
  · decide
  · decide

end Fsm
end Alex
end Vip
