import PcieVip.ClientMemory
import PcieVip.ClientRequests
/-!
# HostDemo — the demo run of the host client (`mini-ics/src/host_client.cpp`)

`RunDemo` from the connection to the last check, over any connection: the requests one after the other through
`SendRequestAndWait`, the polling of CSTS, the command in memory, the doorbell and the service of what the endpoint
asks.  `demo_pass_sound` says what came in when it returns true.
-/
namespace Vip
namespace HostClient

open Ics

/-! ## Registers and constants -/

def kControllerConfiguration : UInt64 := 0x0014
def kControllerStatus : UInt64 := 0x001c
def kAdminQueueAttributes : UInt64 := 0x0024
def kAdminSubmissionQueueBase : UInt64 := 0x0028
def kAdminCompletionQueueBase : UInt64 := 0x0030
def kSubmissionQueue0Doorbell : UInt64 := 0x1000

def kCcEnable : UInt32 := 1
def kCstsReady : UInt32 := 1
def kAsqBase : UInt64 := 0x00100000
def kAcqBase : UInt64 := 0x00101000
def kAqa : UInt32 := ((0x1f : UInt32) <<< 16) ||| 0x1f
def kMockCommandGuestAddr : UInt64 := 0x00200000

/-- The product is one of `size_t`. -/
def initDeterministicPattern : HostMemory where
  size := kMemorySize
  data := fun i => UInt8.ofNat (i.toNat * 2654435761 % 2 ^ 64 / 2 ^ 24)

def mockCommand : List UInt8 := (List.range 64).map (fun i => UInt8.ofNat (0xa0 + i))

def encodeU32 (v : UInt32) : List UInt8 := [v.toUInt8, (v >>> 8).toUInt8, (v >>> 16).toUInt8, (v >>> 24).toUInt8]

def encodeU64 (v : UInt64) : List UInt8 := (List.range 8).map (fun i => (v >>> (8 * UInt64.ofNat i)).toUInt8)

/-! ## The client -/

/-- What the client meets: the attempts to connect for which there is time after the first, and for each message that it
sends how the connection takes it and the time in its header. -/
structure Net where
  first : IoStatus
  more  : List IoStatus := []
  tx    : Nat → List TxTurn
  now   : Nat → UInt64

structure Demo where
  txnGen : TransactionIdGenerator := {}
  memory : HostMemory := initDeterministicPattern
  rx     : List RxTurn
  -- history
  sent   : List Message := []
  got    : List Message := []

def connect (w : Net) : Bool := w.first == .ok || w.more.any (· == .ok)

def Demo.ask (w : Net) (d : Demo) (type : MessageType) (address byteEnable : UInt64) (payload : List UInt8) :
    Option Message × Demo :=
  let n := d.sent.length
  let e := sendRequestAndWait d.txnGen ⟨type, address, byteEnable, payload, w.now n⟩ (w.tx n) d.rx
  (e.answer,
    { d with txnGen := e.txnGen, rx := e.rest, sent := d.sent ++ [e.request], got := d.got ++ e.answer.toList })

def accepts (t : MessageType) (m : Message) : Bool := m.header.isType t && m.header.isStatus .success

def doHello (w : Net) (d : Demo) : Bool × Demo :=
  let r := d.ask w .hello 0 0 []
  (r.1.any (·.header.isType .helloAck), r.2)

def doReset (w : Net) (d : Demo) : Bool × Demo :=
  let r := d.ask w .resetReq 0 0 []
  (r.1.any (accepts .resetRsp), r.2)

def mmioWrite32 (w : Net) (addr : UInt64) (value : UInt32) (d : Demo) : Bool × Demo :=
  let r := d.ask w .mmioWriteReq addr 0xf (encodeU32 value)
  (r.1.any (accepts .mmioWriteRsp), r.2)

def mmioWrite64 (w : Net) (addr value : UInt64) (d : Demo) : Bool × Demo :=
  let r := d.ask w .mmioWriteReq addr 0xff (encodeU64 value)
  (r.1.any (accepts .mmioWriteRsp), r.2)

def readValue (m : Message) : Option UInt32 :=
  if accepts .mmioReadRsp m && 4 ≤ m.payload.length then some (getU32 m.payload) else none

def mmioRead32 (w : Net) (addr : UInt64) (d : Demo) : Option UInt32 × Demo :=
  let r := d.ask w .mmioReadReq addr 0xf []
  (r.1.bind readValue, r.2)

/-- `if (!f()) return false;` before the rest. -/
def andThen (r : Bool × Demo) (f : Demo → Bool × Demo) : Bool × Demo := if r.1 then f r.2 else r

def configureAdminQueues (w : Net) (d : Demo) : Bool × Demo :=
  andThen (mmioWrite64 w kAdminSubmissionQueueBase kAsqBase d) fun d =>
    andThen (mmioWrite64 w kAdminCompletionQueueBase kAcqBase d) (mmioWrite32 w kAdminQueueAttributes kAqa)

/-- At most `n` reads of CSTS. -/
def pollReady (w : Net) : Nat → Demo → Bool × Demo
  | 0, d     => (false, d)
  | n + 1, d =>
    let r := mmioRead32 w kControllerStatus d
    match r.1 with
    | none   => (false, r.2)
    | some v => if v &&& kCstsReady ≠ 0 then (true, r.2) else pollReady w n r.2

def enableControllerAndWaitReady (w : Net) (d : Demo) : Bool × Demo :=
  andThen (mmioWrite32 w kControllerConfiguration kCcEnable d) (pollReady w 50)

def writeMockNvmeCommand (d : Demo) : Bool × Demo :=
  match d.memory.write kMockCommandGuestAddr mockCommand with
  | none        => (false, d)
  | some memory => (true, { d with memory })

def ringDoorbell (w : Net) : Demo → Bool × Demo := mmioWrite32 w kSubmissionQueue0Doorbell 1

/-- The times of the answers count down in `serviceLoop`. -/
def serviceRtl (w : Net) (d : Demo) : Bool × Demo :=
  let o := serviceRtlInitiatedTransactions (fun n => w.now (d.sent.length + (2 - n))) d.rx d.memory
  (o.ok,
    { d with memory := o.memory, sent := d.sent ++ o.served.filterMap (·.reply), got := d.got ++ o.served.map (·.msg) })

def sendShutdown (w : Net) (d : Demo) : Demo :=
  let id := d.txnGen.next
  let h := makeHeader .shutdown id.1 0 0 .success (w.now d.sent.length) 0
  { d with txnGen := id.2, sent := d.sent ++ [⟨h, []⟩] }

def runDemo (w : Net) (d : Demo) : Bool × Demo :=
  if !connect w then (false, d)
  else
    let r := andThen (doHello w d) fun d =>
      andThen (doReset w d) fun d =>
        andThen (configureAdminQueues w d) fun d =>
          andThen (enableControllerAndWaitReady w d) fun d =>
            andThen (writeMockNvmeCommand d) fun d =>
              andThen (ringDoorbell w d) (serviceRtl w)
    if r.1 then (true, sendShutdown w r.2) else r

/-! ## What came in -/

/-- From `d` to `d'` the client took these messages off the connection, and its memory is as it was. -/
structure Reads (d d' : Demo) (ms : List Message) : Prop where
  got    : d'.got = d.got ++ ms
  stream : streamOf d.rx = bytesOf ms ++ streamOf d'.rx
  memory : d'.memory = d.memory

theorem Reads.trans {d d' d'' : Demo} {ms ms' : List Message} (h : Reads d d' ms) (h' : Reads d' d'' ms') :
    Reads d d'' (ms ++ ms') := by
  refine ⟨?_, ?_, h'.memory.trans h.memory⟩
  · rw [h'.got, h.got, List.append_assoc]
  · rw [h.stream, h'.stream, bytesOf, bytesOf, bytesOf, List.flatMap_append, List.append_assoc]

theorem answer_stream {g : TransactionIdGenerator} {c : Call} {tx : List TxTurn} {rx : List RxTurn} {m : Message}
    (h : (sendRequestAndWait g c tx rx).answer = some m) :
    streamOf rx = m.bytes ++ streamOf (sendRequestAndWait g c tx rx).rest := by
  unfold sendRequestAndWait at h ⊢
  dsimp only at h ⊢
  split at h
  · cases h
  · rename_i hst
    rw [if_neg hst]
    cases hr : (readMessage rx).message with
    | error e => rw [hr] at h; cases h
    | ok m'   =>
      rw [hr] at h
      cases h
      exact (parseMessage_exact (readMessage_parse hr).1).2

/-- **A request that got an answer read one message.** -/
theorem ask_reads {w : Net} {d : Demo} {type : MessageType} {address byteEnable : UInt64} {payload : List UInt8}
    {m : Message} (h : (d.ask w type address byteEnable payload).1 = some m) :
    Reads d (d.ask w type address byteEnable payload).2 [m] := by
  simp only [Demo.ask] at h ⊢
  refine ⟨?_, ?_, ?_⟩
  · simp only [h, Option.toList_some]
  · simp only [bytesOf, List.flatMap_cons, List.flatMap_nil, List.append_nil]
    exact answer_stream h
  · rfl

theorem andThen_true {r : Bool × Demo} {f : Demo → Bool × Demo} (h : (andThen r f).1 = true) :
    r.1 = true ∧ (f r.2).1 = true ∧ andThen r f = f r.2 := by
  unfold andThen at h ⊢
  cases hr : r.1 with
  | false => rw [hr, if_neg Bool.false_ne_true, hr] at h; cases h
  | true  => rw [hr, if_pos rfl] at h; exact ⟨rfl, h, if_pos rfl⟩

theorem any_some {r : Option Message} {p : Message → Bool} (h : r.any p = true) : ∃ m, r = some m ∧ p m = true := by
  cases r with
  | none   => cases h
  | some m => exact ⟨m, rfl, h⟩

theorem ask_passes {w : Net} {d : Demo} {type : MessageType} {address byteEnable : UInt64} {payload : List UInt8}
    {p : Message → Bool} (h : ((d.ask w type address byteEnable payload).1.any p) = true) :
    ∃ m, p m = true ∧ Reads d (d.ask w type address byteEnable payload).2 [m] := by
  obtain ⟨m, hm, hp⟩ := any_some h
  exact ⟨m, hp, ask_reads hm⟩

theorem write32_reads {w : Net} {addr : UInt64} {value : UInt32} {d : Demo}
    (h : (mmioWrite32 w addr value d).1 = true) :
    ∃ m, accepts .mmioWriteRsp m = true ∧ Reads d (mmioWrite32 w addr value d).2 [m] := by
  simp only [mmioWrite32] at h ⊢
  exact ask_passes h

theorem write64_reads {w : Net} {addr value : UInt64} {d : Demo} (h : (mmioWrite64 w addr value d).1 = true) :
    ∃ m, accepts .mmioWriteRsp m = true ∧ Reads d (mmioWrite64 w addr value d).2 [m] := by
  simp only [mmioWrite64] at h ⊢
  exact ask_passes h

theorem read32_reads {w : Net} {addr : UInt64} {d : Demo} {v : UInt32} (h : (mmioRead32 w addr d).1 = some v) :
    ∃ m, readValue m = some v ∧ Reads d (mmioRead32 w addr d).2 [m] := by
  simp only [mmioRead32] at h ⊢
  obtain ⟨m, hm, hread⟩ := Option.bind_eq_some_iff.1 h
  exact ⟨m, hread, ask_reads hm⟩

theorem configure_reads {w : Net} {d : Demo} (h : (configureAdminQueues w d).1 = true) :
    ∃ ms, ms.length = 3 ∧ (∀ m ∈ ms, accepts .mmioWriteRsp m = true) ∧ Reads d (configureAdminQueues w d).2 ms := by
  unfold configureAdminQueues at h ⊢
  obtain ⟨h1, h, heq⟩ := andThen_true h
  rw [heq]
  obtain ⟨h2, h3, heq⟩ := andThen_true h
  rw [heq]
  obtain ⟨m1, hm1, hr1⟩ := write64_reads h1
  obtain ⟨m2, hm2, hr2⟩ := write64_reads h2
  obtain ⟨m3, hm3, hr3⟩ := write32_reads h3
  refine ⟨[m1, m2, m3], rfl, fun m hm => ?_, (hr1.trans hr2).trans hr3⟩
  simp only [List.mem_cons, List.not_mem_nil, or_false] at hm
  rcases hm with rfl | rfl | rfl <;> assumption

theorem poll_reads {w : Net} {n : Nat} {d : Demo} (h : (pollReady w n d).1 = true) :
    ∃ polls ready v, polls.length < n ∧ (∀ m ∈ polls, ∃ v, readValue m = some v ∧ v &&& kCstsReady = 0) ∧
      readValue ready = some v ∧ v &&& kCstsReady ≠ 0 ∧ Reads d (pollReady w n d).2 (polls ++ [ready]) := by
  induction n generalizing d with
  | zero      => cases h
  | succ n ih =>
    unfold pollReady at h ⊢
    dsimp only at h ⊢
    split at h
    · cases h
    · rename_i v hv
      obtain ⟨m, hread, hr⟩ := read32_reads hv
      split at h
      · rename_i hrdy
        rw [if_pos hrdy]
        exact ⟨[], m, v, Nat.succ_pos n, fun _ h => (by cases h), hread, hrdy, hr⟩
      · rename_i hrdy
        obtain ⟨polls, ready, v', hlen, hpolls, hready, hv', hrest⟩ := ih h
        rw [if_neg hrdy]
        refine ⟨m :: polls, ready, v', Nat.succ_lt_succ hlen, fun m' hm' => ?_, hready, hv', hr.trans hrest⟩
        rcases List.mem_cons.1 hm' with rfl | hm'
        · exact ⟨v, hread, not_not.1 hrdy⟩
        · exact hpolls m' hm'

/-! ## The service of the endpoint's requests -/

theorem service_flags (v : Vars) (m : Message) (now : UInt64) :
    (v.service m now).vars.sawDmaRead = (v.sawDmaRead || m.header.isType .dmaReadReq) ∧
    (v.service m now).vars.sawDmaWrite = (v.sawDmaWrite || m.header.isType .dmaWriteReq) ∧
    (v.service m now).vars.sawMsix = (v.sawMsix || m.header.isType .msiX) := by
  unfold Vars.service
  split
  · rename_i hr
    have hw : m.header.isType .dmaWriteReq = false := Header.isType_of_ne hr (by decide)
    have hx : m.header.isType .msiX = false := Header.isType_of_ne hr (by decide)
    unfold Vars.dmaRead
    dsimp only
    split
    · simp [hr, hw, hx]
    · split <;> simp [hr, hw, hx]
  · rename_i hr
    split
    · rename_i hw
      have hx : m.header.isType .msiX = false := Header.isType_of_ne hw (by decide)
      unfold Vars.dmaWrite
      dsimp only
      split <;> simp [hr, hw, hx]
    · rename_i hw
      split
      · rename_i hx
        simp [hr, hw, hx]
      · rename_i hx
        simp [hr, hw, hx]

theorem service_memory (v : Vars) (m : Message) (now : UInt64) (hgo : (v.service m now).goOn = true) :
    if m.header.isType .dmaWriteReq = true then
      v.memory.write m.header.address m.payload = some (v.service m now).vars.memory ∧
        (v.service m now).vars.completionBytes = m.payload
    else (v.service m now).vars.memory = v.memory ∧ (v.service m now).vars.completionBytes = v.completionBytes := by
  by_cases hw : m.header.isType .dmaWriteReq = true
  · have hr : ¬ m.header.isType .dmaReadReq = true := by
      rw [Header.isType_of_ne hw (by decide)]
      exact Bool.false_ne_true
    rw [Vars.service, if_neg hr, if_pos hw] at hgo ⊢
    rw [if_pos hw]
    unfold Vars.dmaWrite at hgo ⊢
    dsimp only at hgo ⊢
    split at hgo
    · cases hgo
    · rename_i memory hmem
      simp only [hmem, true_and]
  · rw [if_neg hw]
    unfold Vars.service
    split
    · unfold Vars.dmaRead
      dsimp only
      split
      · exact ⟨rfl, rfl⟩
      · split <;> exact ⟨rfl, rfl⟩
    · split <;> exact ⟨rfl, rfl⟩

theorem serviceLoop_turn {now : Nat → UInt64} {n : Nat} {rx : List RxTurn} {v : Vars}
    (hv : v.sawAll = false) (h : (serviceLoop now (n + 1) rx v).returned = false) :
    ∃ m rest, streamOf rx = m.bytes ++ streamOf rest ∧ (v.service m (now n)).goOn = true ∧
      (serviceLoop now n rest (v.service m (now n)).vars).returned = false ∧
      (serviceLoop now (n + 1) rx v).vars = (serviceLoop now n rest (v.service m (now n)).vars).vars ∧
      (serviceLoop now (n + 1) rx v).served.map (·.msg) =
        m :: (serviceLoop now n rest (v.service m (now n)).vars).served.map (·.msg) := by
  rw [serviceLoop, if_neg (by rw [hv]; exact Bool.false_ne_true)] at h ⊢
  dsimp only at h ⊢
  split at h
  · cases h
  · rename_i m hm
    split at h
    · rename_i hgo
      refine ⟨m, _, (parseMessage_exact (readMessage_parse hm).1).2, hgo, h, ?_, ?_⟩
      · simp only [if_pos hgo]
      · simp only [if_pos hgo, List.map_cons]
    · cases h

def expectedCompletion : List UInt8 := (List.range 16).map (fun i => 0xc0 + UInt8.ofNat i)

theorem eq_expected {data : List UInt8}
    (h : (data.length == 16 && (List.range 16).all (fun i => data.getD i 0 == 0xc0 + UInt8.ofNat i)) = true) :
    data = expectedCompletion := by
  simp only [Bool.and_eq_true, beq_iff_eq, List.all_eq_true, List.mem_range] at h
  obtain ⟨hlen, hall⟩ := h
  refine List.ext_getElem (by rw [hlen]; rfl) (fun i hi _ => ?_)
  have := hall i (by omega)
  rw [List.getD_eq_getElem?_getD, List.getElem?_eq_getElem hi, Option.getD_some] at this
  rw [this]
  simp [expectedCompletion]

/-- One of each kind, in some order; the write went to memory. -/
structure Triple (ms : List Message) (mem mem' : HostMemory) : Prop where
  three : ms.length = 3
  read  : ∃ m ∈ ms, m.header.isType .dmaReadReq = true
  msix  : ∃ m ∈ ms, m.header.isType .msiX = true
  write : ∃ m ∈ ms, m.header.isType .dmaWriteReq = true ∧ m.payload = expectedCompletion ∧
    mem.write m.header.address m.payload = some mem'

theorem isType_apart (m : Message) : (m.header.isType .dmaReadReq = true → m.header.isType .dmaWriteReq = false) ∧
    (m.header.isType .dmaReadReq = true → m.header.isType .msiX = false) ∧
    (m.header.isType .dmaWriteReq = true → m.header.isType .msiX = false) :=
  ⟨fun h => Header.isType_of_ne h (by decide), fun h => Header.isType_of_ne h (by decide),
    fun h => Header.isType_of_ne h (by decide)⟩

theorem one_write {a b c : Message}
    (hr : a.header.isType .dmaReadReq = true ∨ b.header.isType .dmaReadReq = true ∨ c.header.isType .dmaReadReq = true)
    (hx : a.header.isType .msiX = true ∨ b.header.isType .msiX = true ∨ c.header.isType .msiX = true)
    (ha : a.header.isType .dmaWriteReq = true) : ¬ b.header.isType .dmaWriteReq = true := by
  intro hb
  obtain ⟨hrw, hrx, -⟩ := isType_apart c
  have hno : ∀ m : Message, m.header.isType .dmaWriteReq = true →
      ¬ m.header.isType .dmaReadReq = true ∧ ¬ m.header.isType .msiX = true := by
    intro m hm
    obtain ⟨hmr, -, hmx⟩ := isType_apart m
    constructor
    · intro h
      rw [hmr h] at hm
      cases hm
    · intro h
      rw [hmx hm] at h
      cases h
  have hcr := (hr.resolve_left (hno a ha).1).resolve_left (hno b hb).1
  have hcx := (hx.resolve_left (hno a ha).2).resolve_left (hno b hb).2
  rw [hrx hcr] at hcx
  cases hcx

theorem sawAll_one (v : Vars) (m : Message) (now : UInt64) (hr : v.sawDmaRead = false) (hw : v.sawDmaWrite = false) :
    (v.service m now).vars.sawAll = false := by
  obtain ⟨h1, h2, -⟩ := service_flags v m now
  obtain ⟨ha, -, -⟩ := isType_apart m
  rw [Vars.sawAll, h1, h2, hr, hw]
  cases hm : m.header.isType .dmaReadReq with
  | false => rfl
  | true  => rw [ha hm]; rfl

theorem sawAll_two (v : Vars) (m m' : Message) (now now' : UInt64) (hr : v.sawDmaRead = false)
    (hw : v.sawDmaWrite = false) (hx : v.sawMsix = false) :
    ((v.service m now).vars.service m' now').vars.sawAll = false := by
  obtain ⟨h1, h2, h3⟩ := service_flags v m now
  obtain ⟨k1, k2, k3⟩ := service_flags (v.service m now).vars m' now'
  obtain ⟨ha1, ha2, ha3⟩ := isType_apart m
  obtain ⟨hb1, hb2, hb3⟩ := isType_apart m'
  rw [Vars.sawAll, k1, k2, k3, h1, h2, h3, hr, hw, hx]
  refine Bool.eq_false_iff.2 (fun h => ?_)
  simp only [Bool.false_or, Bool.and_eq_true, Bool.or_eq_true] at h
  -- two messages are of two types at most
  obtain ⟨⟨hr | hr, hw | hw⟩, hx | hx⟩ := h <;> simp_all

theorem serviceLoop_three {now : Nat → UInt64} {rx : List RxTurn} {v : Vars} (hr : v.sawDmaRead = false)
    (hw : v.sawDmaWrite = false) (hx : v.sawMsix = false) (h : (serviceLoop now 3 rx v).returned = false) :
    ∃ m1 m2 m3 rest, streamOf rx = bytesOf [m1, m2, m3] ++ rest ∧
      (serviceLoop now 3 rx v).served.map (·.msg) = [m1, m2, m3] ∧
      let b1 := v.service m1 (now 2)
      let b2 := b1.vars.service m2 (now 1)
      let b3 := b2.vars.service m3 (now 0)
      b1.goOn = true ∧ b2.goOn = true ∧ b3.goOn = true ∧ (serviceLoop now 3 rx v).vars = b3.vars := by
  have hsaw : v.sawAll = false := by rw [Vars.sawAll, hr]; rfl
  obtain ⟨m1, rx1, hs1, hgo1, hret1, hv1, hm1⟩ := serviceLoop_turn hsaw h
  obtain ⟨m2, rx2, hs2, hgo2, hret2, hv2, hm2⟩ := serviceLoop_turn (sawAll_one v m1 (now 2) hr hw) hret1
  obtain ⟨m3, rx3, hs3, hgo3, -, hv3, hm3⟩ := serviceLoop_turn (sawAll_two v m1 m2 (now 2) (now 1) hr hw hx) hret2
  refine ⟨m1, m2, m3, streamOf rx3, ?_, ?_, hgo1, hgo2, hgo3, ?_⟩
  · simp only [bytesOf, List.flatMap_cons, List.flatMap_nil, List.append_nil, hs1, hs2, hs3, List.append_assoc]
  · rw [hm1, hm2, hm3, serviceLoop, List.map_nil]
  · rw [hv1, hv2, hv3, serviceLoop]

structure Vars.Moves (v v' : Vars) (m : Message) : Prop where
  write : m.header.isType .dmaWriteReq = true →
    v.memory.write m.header.address m.payload = some v'.memory ∧ v'.completionBytes = m.payload
  keep  : ¬ m.header.isType .dmaWriteReq = true → v'.memory = v.memory ∧ v'.completionBytes = v.completionBytes

theorem service_moves {v : Vars} {m : Message} {now : UInt64} (hgo : (v.service m now).goOn = true) :
    v.Moves (v.service m now).vars m := by
  have h := service_memory v m now hgo
  constructor
  · intro hw
    rwa [if_pos hw] at h
  · intro hw
    rwa [if_neg hw] at h

theorem moves_write {v0 v1 v2 v3 : Vars} {m1 m2 m3 : Message} (h1 : v0.Moves v1 m1) (h2 : v1.Moves v2 m2)
    (h3 : v2.Moves v3 m3)
    (hread : m1.header.isType .dmaReadReq = true ∨ m2.header.isType .dmaReadReq = true ∨
      m3.header.isType .dmaReadReq = true)
    (hmsix : m1.header.isType .msiX = true ∨ m2.header.isType .msiX = true ∨ m3.header.isType .msiX = true)
    (hwrite : m1.header.isType .dmaWriteReq = true ∨ m2.header.isType .dmaWriteReq = true ∨
      m3.header.isType .dmaWriteReq = true) :
    ∃ m ∈ [m1, m2, m3], m.header.isType .dmaWriteReq = true ∧ m.payload = v3.completionBytes ∧
      v0.memory.write m.header.address m.payload = some v3.memory := by
  rcases hwrite with hw | hw | hw
  · obtain ⟨hmem, hdata⟩ := h1.write hw
    obtain ⟨hk2, hd2⟩ := h2.keep (one_write hread hmsix hw)
    obtain ⟨hk3, hd3⟩ := h3.keep (one_write (b := m3) (c := m2) (by tauto) (by tauto) hw)
    exact ⟨m1, List.mem_cons_self, hw, by rw [hd3, hd2, hdata], by rw [hk3, hk2, hmem]⟩
  · obtain ⟨hk1, -⟩ := h1.keep (one_write (b := m1) (c := m3) (by tauto) (by tauto) hw)
    obtain ⟨hmem, hdata⟩ := h2.write hw
    obtain ⟨hk3, hd3⟩ := h3.keep (one_write (b := m3) (c := m1) (by tauto) (by tauto) hw)
    exact ⟨m2, by simp, hw, by rw [hd3, hdata], by rw [hk3, ← hmem, hk1]⟩
  · obtain ⟨hk1, -⟩ := h1.keep (one_write (b := m1) (c := m2) (by tauto) (by tauto) hw)
    obtain ⟨hk2, -⟩ := h2.keep (one_write (b := m2) (c := m1) (by tauto) (by tauto) hw)
    obtain ⟨hmem, hdata⟩ := h3.write hw
    exact ⟨m3, by simp, hw, hdata.symm, by rw [← hmem, hk2, hk1]⟩

theorem service_sound {now : Nat → UInt64} {rx : List RxTurn} {mem : HostMemory}
    (h : (serviceRtlInitiatedTransactions now rx mem).ok = true) :
    (∃ rest, streamOf rx = bytesOf ((serviceRtlInitiatedTransactions now rx mem).served.map (·.msg)) ++ rest) ∧
      Triple ((serviceRtlInitiatedTransactions now rx mem).served.map (·.msg)) mem
        (serviceRtlInitiatedTransactions now rx mem).memory := by
  simp only [serviceRtlInitiatedTransactions, Bool.and_eq_true, Bool.not_eq_true'] at h ⊢
  obtain ⟨⟨hret, hall⟩, hdata⟩ := h
  have hexp := eq_expected (by simpa only [Bool.and_eq_true] using hdata)
  obtain ⟨m1, m2, m3, rest, hs, hmap, hgo1, hgo2, hgo3, hv⟩ := serviceLoop_three rfl rfl rfl hret
  rw [hv] at hall hexp ⊢
  rw [hmap]
  obtain ⟨hr1, hw1, hx1⟩ := service_flags { memory := mem } m1 (now 2)
  obtain ⟨hr2, hw2, hx2⟩ := service_flags (Vars.service { memory := mem } m1 (now 2)).vars m2 (now 1)
  rw [Vars.sawAll, (service_flags _ m3 (now 0)).1, (service_flags _ m3 (now 0)).2.1, (service_flags _ m3 (now 0)).2.2,
    hr2, hw2, hx2, hr1, hw1, hx1] at hall
  simp only [Bool.false_or, Bool.and_eq_true, Bool.or_eq_true, or_assoc] at hall
  obtain ⟨⟨hread, hwrite⟩, hmsix⟩ := hall
  obtain ⟨m, hm, hw, hpay, hmem⟩ :=
    moves_write (service_moves hgo1) (service_moves hgo2) (service_moves hgo3) hread hmsix hwrite
  refine ⟨⟨rest, hs⟩, rfl, ?_, ?_, ⟨m, hm, hw, hpay.trans hexp, hmem⟩⟩
  · rcases hread with hr | hr | hr
    · exact ⟨m1, by simp, hr⟩
    · exact ⟨m2, by simp, hr⟩
    · exact ⟨m3, by simp, hr⟩
  · rcases hmsix with hx | hx | hx
    · exact ⟨m1, by simp, hx⟩
    · exact ⟨m2, by simp, hx⟩
    · exact ⟨m3, by simp, hx⟩

/-! ## The run -/

/-- What came in over a run that passed, and the memory after it. -/
structure Passed (got : List Message) (mem mem' : HostMemory) : Prop where
  order : ∃ hello reset queues enable polls ready bell rtl,
    got = [hello, reset] ++ queues ++ [enable] ++ (polls ++ [ready]) ++ [bell] ++ rtl ∧
      hello.header.isType .helloAck = true ∧ accepts .resetRsp reset = true ∧ queues.length = 3 ∧
      (∀ m ∈ queues, accepts .mmioWriteRsp m = true) ∧ accepts .mmioWriteRsp enable = true ∧ polls.length < 50 ∧
      (∀ m ∈ polls, ∃ v, readValue m = some v ∧ v &&& kCstsReady = 0) ∧
      (∃ v, readValue ready = some v ∧ v &&& kCstsReady ≠ 0) ∧ accepts .mmioWriteRsp bell = true ∧
      ∃ mem1, mem.write kMockCommandGuestAddr mockCommand = some mem1 ∧ Triple rtl mem1 mem'

theorem hello_reads {w : Net} {d : Demo} (h : (doHello w d).1 = true) :
    ∃ m : Message, m.header.isType .helloAck = true ∧ Reads d (doHello w d).2 [m] := by
  simp only [doHello] at h ⊢
  exact ask_passes h

theorem reset_reads {w : Net} {d : Demo} (h : (doReset w d).1 = true) :
    ∃ m, accepts .resetRsp m = true ∧ Reads d (doReset w d).2 [m] := by
  simp only [doReset] at h ⊢
  exact ask_passes h

theorem enable_reads {w : Net} {d : Demo} (h : (enableControllerAndWaitReady w d).1 = true) :
    ∃ enable polls ready v, accepts .mmioWriteRsp enable = true ∧ polls.length < 50 ∧
      (∀ m ∈ polls, ∃ v, readValue m = some v ∧ v &&& kCstsReady = 0) ∧ readValue ready = some v ∧
      v &&& kCstsReady ≠ 0 ∧ Reads d (enableControllerAndWaitReady w d).2 ([enable] ++ (polls ++ [ready])) := by
  unfold enableControllerAndWaitReady at h ⊢
  obtain ⟨h1, h2, heq⟩ := andThen_true h
  obtain ⟨m, hm, hr⟩ := write32_reads h1
  obtain ⟨polls, ready, v, hlen, hpolls, hready, hv, hrest⟩ := poll_reads h2
  rw [heq]
  exact ⟨m, polls, ready, v, hm, hlen, hpolls, hready, hv, hr.trans hrest⟩

theorem mock_true {d : Demo} (h : (writeMockNvmeCommand d).1 = true) :
    ∃ memory, d.memory.write kMockCommandGuestAddr mockCommand = some memory ∧
      (writeMockNvmeCommand d).2 = { d with memory } := by
  unfold writeMockNvmeCommand at h ⊢
  split at h
  · cases h
  · rename_i memory hm
    exact ⟨memory, hm, by simp only⟩

theorem doorbell_reads {w : Net} {d : Demo} (h : (andThen (ringDoorbell w d) (serviceRtl w)).1 = true) :
    ∃ bell rtl rest, accepts .mmioWriteRsp bell = true ∧
      (andThen (ringDoorbell w d) (serviceRtl w)).2.got = d.got ++ ([bell] ++ rtl) ∧
      streamOf d.rx = bytesOf ([bell] ++ rtl) ++ rest ∧
      Triple rtl d.memory (andThen (ringDoorbell w d) (serviceRtl w)).2.memory := by
  obtain ⟨h1, h2, heq⟩ := andThen_true h
  rw [heq]
  obtain ⟨bell, hbell, hr⟩ := write32_reads h1
  unfold ringDoorbell at h2 ⊢
  generalize (mmioWrite32 w kSubmissionQueue0Doorbell 1 d).2 = d1 at *
  simp only [serviceRtl] at h2 ⊢
  obtain ⟨⟨rest, hs⟩, htriple⟩ := service_sound h2
  generalize serviceRtlInitiatedTransactions _ d1.rx d1.memory = o at *
  refine ⟨bell, o.served.map (·.msg), rest, hbell, ?_, ?_, ?_⟩
  · rw [hr.got, List.append_assoc]
  · rw [hr.stream, hs, bytesOf, bytesOf, bytesOf, List.flatMap_append, List.append_assoc]
  · rw [← hr.memory]
    exact htriple

theorem sendShutdown_keeps (w : Net) (d : Demo) :
    (sendShutdown w d).got = d.got ∧ (sendShutdown w d).memory = d.memory :=
  ⟨rfl, rfl⟩

/-- **A pass is earned**: when `RunDemo` returns true, on whatever connection, what came in are the acknowledgements of
the greeting and of the reset, of the three queue registers and of the enable bit, fewer than fifty answers that the
controller is not ready and one that it is, the acknowledgement of the doorbell, and a DMA read, a DMA write of the
expected completion and an interrupt; and the memory holds the command and, where the write pointed, the completion. -/
theorem demo_pass_sound (w : Net) (d : Demo) (h : (runDemo w d).1 = true) :
    ∃ got rest, (runDemo w d).2.got = d.got ++ got ∧ streamOf d.rx = bytesOf got ++ rest ∧
      Passed got d.memory (runDemo w d).2.memory := by
  unfold runDemo at h ⊢
  split at h
  · cases h
  · rename_i hconn
    rw [if_neg hconn]
    dsimp only at h ⊢
    split at h
    · rename_i hr
      rw [if_pos hr]
      obtain ⟨h1, hr, heq⟩ := andThen_true hr
      rw [heq]
      obtain ⟨hello, hhello, hr1⟩ := hello_reads h1
      generalize (doHello w d).2 = d1 at *
      obtain ⟨h2, hr, heq⟩ := andThen_true hr
      rw [heq]
      obtain ⟨reset, hreset, hr2⟩ := reset_reads h2
      generalize (doReset w d1).2 = d2 at *
      obtain ⟨h3, hr, heq⟩ := andThen_true hr
      rw [heq]
      obtain ⟨queues, hlen, hqueues, hr3⟩ := configure_reads h3
      generalize (configureAdminQueues w d2).2 = d3 at *
      obtain ⟨h4, hr, heq⟩ := andThen_true hr
      rw [heq]
      obtain ⟨enable, polls, ready, v, henable, hpolls, hnot, hready, hv, hr4⟩ := enable_reads h4
      generalize (enableControllerAndWaitReady w d3).2 = d4 at *
      obtain ⟨h5, hr, heq⟩ := andThen_true hr
      rw [heq]
      obtain ⟨mem1, hmem1, hd5⟩ := mock_true h5
      rw [hd5] at hr ⊢
      obtain ⟨bell, rtl, rest, hbell, hgot, hs, htriple⟩ := doorbell_reads hr
      have hall := ((hr1.trans hr2).trans hr3).trans hr4
      refine ⟨[hello, reset] ++ queues ++ [enable] ++ (polls ++ [ready]) ++ [bell] ++ rtl, rest, ?_, ?_, ⟨hello, reset,
        queues, enable, polls, ready, bell, rtl, rfl, hhello, hreset, hlen, hqueues, henable, hpolls, hnot,
        ⟨v, hready, hv⟩, hbell, mem1, ?_, ?_⟩⟩
      · rw [(sendShutdown_keeps w _).1, hgot, hall.got]
        simp only [List.append_assoc, List.cons_append, List.nil_append]
      · rw [hall.stream, hs]
        simp only [bytesOf, List.flatMap_append, List.append_assoc, List.flatMap_cons, List.flatMap_nil,
          List.append_nil]
      · rw [← hall.memory]
        exact hmem1
      · rw [(sendShutdown_keeps w _).2]
        exact htriple
    · rename_i hr
      exact absurd h hr

def fromEndpoint (type : MessageType) (address : UInt64) (payload : List UInt8) (transferLen : UInt32) : Message :=
  ⟨makeHeader type 0 address 0 .success 0 (UInt32.ofNat payload.length) kFlagNone transferLen, payload⟩

/-- CSTS is read twice, and the interrupt comes before the completion. -/
theorem demo_pass_sound_early_interrupt :
    ∃ (w : Net) (d : Demo), (runDemo w d).1 = true ∧
      ∃ got rest, (runDemo w d).2.got = d.got ++ got ∧ streamOf d.rx = bytesOf got ++ rest ∧
        Passed got d.memory (runDemo w d).2.memory := by
  let wrote := fromEndpoint .mmioWriteRsp 0 [] 0
  let w : Net := { first := .timeout, more := [.ok], tx := fun _ => [⟨polledReady, .wrote 72⟩], now := fun _ => 0 }
  let d : Demo := { rx := [⟨polledReady, .data (bytesOf [fromEndpoint .helloAck 0 [] 0, fromEndpoint .resetRsp 0 [] 0,
    wrote, wrote, wrote, wrote, fromEndpoint .mmioReadRsp 0 [0, 0, 0, 0] 4, fromEndpoint .mmioReadRsp 0 [1, 0, 0, 0] 4,
    wrote, fromEndpoint .dmaReadReq 0 [] 64, fromEndpoint .msiX 0 [] 0,
    fromEndpoint .dmaWriteReq 0x1000 expectedCompletion 16])⟩] }
  have h : (runDemo w d).1 = true := by decide +kernel
  exact ⟨w, d, h, demo_pass_sound w d h⟩

end HostClient
end Vip
