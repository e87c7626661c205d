import PcieVip.HostClient
/-!
# ClientMemory — the host client's DMA service as a bounded memory

`ServiceRtlInitiatedTransactions` as a whole, for a memory of any size: at most three messages of the connection, each
handled by `Vars.service`, and the check of the completion at the end.  The history of a call, or of any number of calls
one after the other, is a chain of services of one message (`Chain`).  From what one service does (`Served.Step`)
follows what the memory holds at any moment: at each address the last byte written there (`Chain.byte_eq`).
`service_bounded_memory` collects what each request is answered with.
-/
namespace Vip
namespace HostClient

open Ics Mem

/-! ## The function -/

def Vars.sawAll (v : Vars) : Bool := v.sawDmaRead && v.sawDmaWrite && v.sawMsix

/-- A message that was consumed, with the memory around its service. -/
structure Served where
  msg    : Message
  before : HostMemory
  reply  : Option Message
  after  : HostMemory

/-- `returned` says that the loop was left by a `return false`. -/
structure Loop where
  vars     : Vars
  served   : List Served := []
  returned : Bool := false

def serviceLoop (now : Nat → UInt64) : Nat → List RxTurn → Vars → Loop
  | 0, _, v      => { vars := v }
  | n + 1, rx, v =>
    if v.sawAll then { vars := v }
    else
      let r := readMessage rx
      match r.message with
      | .error _ => { vars := v, returned := true }
      | .ok msg  =>
        let b := v.service msg (now n)
        let e : Served := ⟨msg, v.memory, b.reply, b.vars.memory⟩
        if b.goOn then
          let l := serviceLoop now n r.rest b.vars
          { l with served := e :: l.served }
        else { vars := b.vars, served := [e], returned := true }

structure Outcome where
  ok     : Bool
  memory : HostMemory
  served : List Served

def serviceRtlInitiatedTransactions (now : Nat → UInt64) (rx : List RxTurn) (memory : HostMemory) : Outcome :=
  let l := serviceLoop now 3 rx { memory }
  let data := l.vars.completionBytes
  let verified := data.length == 16 && (List.range 16).all (fun i => data.getD i 0 == 0xc0 + UInt8.ofNat i)
  ⟨!l.returned && l.vars.sawAll && verified, l.vars.memory, l.served⟩

/-- The history of calls one after the other, on any connections. -/
def serviceCalls : List ((Nat → UInt64) × List RxTurn) → HostMemory → List Served
  | [], _                => []
  | (now, rx) :: cs, mem =>
    let o := serviceRtlInitiatedTransactions now rx mem
    o.served ++ serviceCalls cs o.memory

/-! ## The service of one message -/

theorem inBoundsLocked_iff (size addr len : UInt64) :
    inBoundsLocked size addr len = true ↔ len = 0 ∨ addr.toNat + len.toNat ≤ size.toNat := by
  have hsum := UInt64.toNat_add addr len
  have hsize := size.toNat_lt
  have haddr := addr.toNat_lt
  have hlen := len.toNat_lt
  unfold inBoundsLocked
  by_cases h0 : len = 0
  · rw [if_pos h0]
    exact iff_of_true rfl (.inl h0)
  · have hpos : 0 < len.toNat := Nat.pos_of_ne_zero (fun h => h0 (UInt64.toNat_inj.1 h))
    rw [if_neg h0, or_iff_right h0]
    dsimp only
    split
    · rename_i hge
      have hge := UInt64.le_iff_toNat_le.1 hge
      exact iff_of_false nofun (by omega)
    · rename_i hlt
      have hlt := UInt64.lt_iff_toNat_lt.1 (UInt64.not_le.1 hlt)
      split
      · rename_i hwrap
        have hwrap := UInt64.lt_iff_toNat_lt.1 hwrap
        exact iff_of_false nofun (by omega)
      · rename_i hwrap
        have hwrap := UInt64.le_iff_toNat_le.1 (UInt64.not_lt.1 hwrap)
        rw [decide_eq_true_eq, UInt64.le_iff_toNat_le]
        constructor
        · intro h
          omega
        · intro h
          omega

structure Served.Step (e : Served) : Prop where
  read  : e.msg.header.isType .dmaReadReq = true → e.after = e.before ∧ ∃ data status now,
    e.reply = some (sendDmaReadResponse e.msg.header.txnId e.msg.header.address data status now) ∧
      (status = .success ↔ e.msg.header.transferLen ≠ 0 ∧
        e.msg.header.address.toNat + e.msg.header.transferLen.toNat ≤ e.before.size.toNat) ∧
      (status = .success →
        data = Mem.read e.before.data e.msg.header.address.toBitVec e.msg.header.transferLen.toNat)
  write : e.msg.header.isType .dmaWriteReq = true → ∃ status now,
    e.reply = some (sendDmaWriteResponse e.msg.header.txnId e.msg.header.address status now) ∧
      (status = .success ↔ e.msg.payload = [] ∨
        e.msg.header.address.toNat + e.msg.payload.length ≤ e.before.size.toNat) ∧
      e.after = if status = .success then
          { e.before with data := Mem.write e.before.data e.msg.header.address.toBitVec e.msg.payload }
        else e.before
  other : e.msg.header.isType .dmaReadReq = false → e.msg.header.isType .dmaWriteReq = false →
    e.reply = none ∧ e.after = e.before

theorem Vars.dmaRead_step (v : Vars) (msg : Message) (now : UInt64) :
    (v.dmaRead msg now).vars.memory = v.memory ∧ ∃ data status,
      (v.dmaRead msg now).reply = some (sendDmaReadResponse msg.header.txnId msg.header.address data status now) ∧
        (status = .success ↔ msg.header.transferLen ≠ 0 ∧
          msg.header.address.toNat + msg.header.transferLen.toNat ≤ v.memory.size.toNat) ∧
        (status = .success →
          data = Mem.read v.memory.data msg.header.address.toBitVec msg.header.transferLen.toNat) := by
  obtain ⟨data, status, hreply, hiff, hdata⟩ := v.dmaRead_reply msg now
  refine ⟨v.dmaRead_memory msg now, data, status, hreply, hiff.trans ?_, fun hs => by rw [hdata, if_pos hs]⟩
  refine and_congr_right (fun h0 => ?_)
  have hne : msg.header.transferLen.toUInt64 ≠ 0 := by
    intro h
    have hz := congrArg UInt64.toNat h
    rw [UInt32.toNat_toUInt64] at hz
    exact h0 (UInt32.toNat_inj.1 hz)
  rw [inBoundsLocked_iff, or_iff_right hne, UInt32.toNat_toUInt64]

theorem Vars.dmaWrite_step (v : Vars) {msg : Message} (hlen : msg.payload.length < 2 ^ 64) (now : UInt64) :
    ∃ status,
      (v.dmaWrite msg now).reply = some (sendDmaWriteResponse msg.header.txnId msg.header.address status now) ∧
        (status = .success ↔ msg.payload = [] ∨
          msg.header.address.toNat + msg.payload.length ≤ v.memory.size.toNat) ∧
        (v.dmaWrite msg now).vars.memory = if status = .success then
            { v.memory with data := Mem.write v.memory.data msg.header.address.toBitVec msg.payload }
          else v.memory := by
  have hnat : (UInt64.ofNat msg.payload.length).toNat = msg.payload.length := UInt64.toNat_ofNat_of_lt' hlen
  have hnil : UInt64.ofNat msg.payload.length = 0 ↔ msg.payload = [] := by
    rw [← UInt64.toNat_inj, hnat, ← List.length_eq_zero_iff]
    rfl
  obtain ⟨status, hreply, hiff, hmem⟩ := v.dmaWrite_reply msg now
  refine ⟨status, hreply, hiff.trans ?_, hmem⟩
  rw [inBoundsLocked_iff, hnat, hnil]

/-- **The service of a message is a step.** -/
theorem Vars.service_step (v : Vars) {msg : Message} (hlen : msg.payload.length < 2 ^ 64) (now : UInt64) :
    Served.Step ⟨msg, v.memory, (v.service msg now).reply, (v.service msg now).vars.memory⟩ := by
  unfold Vars.service
  refine ⟨fun hr => ?_, fun hw => ?_, fun hr hw => ?_⟩
  · dsimp only at hr ⊢
    rw [if_pos hr]
    obtain ⟨hmem, data, status, hreply, hiff, hdata⟩ := v.dmaRead_step msg now
    exact ⟨hmem, data, status, now, hreply, hiff, hdata⟩
  · dsimp only at hw ⊢
    rw [if_neg (fun hr => by rw [Header.isType_of_ne hw (by decide)] at hr; cases hr), if_pos hw]
    obtain ⟨status, hreply, hiff, hmem⟩ := v.dmaWrite_step hlen now
    exact ⟨status, now, hreply, hiff, hmem⟩
  · dsimp only at hr hw ⊢
    rw [hr, hw, if_neg nofun, if_neg nofun]
    split
    · exact ⟨rfl, rfl⟩
    · exact ⟨rfl, rfl⟩

/-! ## Histories -/

def Chain (m : HostMemory) : List Served → HostMemory → Prop
  | [], m'      => m' = m
  | e :: es, m' => e.before = m ∧ e.Step ∧ Chain e.after es m'

theorem chain_append : ∀ {es fs : List Served} {m m' m'' : HostMemory}, Chain m es m' → Chain m' fs m'' →
    Chain m (es ++ fs) m''
  | [], _, _, _, _, h, h'     => by
    cases h
    exact h'
  | _ :: _, _, _, _, _, h, h' => ⟨h.1, h.2.1, chain_append h.2.2 h'⟩

theorem Chain.split : ∀ {pre post : List Served} {e : Served} {m m' : HostMemory}, Chain m (pre ++ e :: post) m' →
    Chain m pre e.before ∧ e.Step
  | [], _, _, _, _, h      => ⟨h.1, h.2.1⟩
  | _ :: _, _, _, _, _, h => ⟨⟨h.1, h.2.1, h.2.2.split.1⟩, h.2.2.split.2⟩

theorem readMessage_payload_lt {rx : List RxTurn} {m : Message} (h : (readMessage rx).message = .ok m) :
    m.payload.length < 2 ^ 64 := by
  have hm := (parseMessage_exact (readMessage_parse h).1).1
  rw [hm.payload]
  exact Nat.lt_trans m.header.payloadLen.toNat_lt (by decide)

/-- **The loop is a chain**: one step for each message that is read. -/
theorem serviceLoop_chain (now : Nat → UInt64) : ∀ (n : Nat) (rx : List RxTurn) (v : Vars),
    Chain v.memory (serviceLoop now n rx v).served (serviceLoop now n rx v).vars.memory
  | 0, _, _      => rfl
  | n + 1, rx, v => by
    rw [serviceLoop]
    split
    · rfl
    · dsimp only
      split
      · rfl
      · rename_i msg hmsg
        have hstep := v.service_step (readMessage_payload_lt hmsg) (now n)
        split
        · exact ⟨rfl, hstep, serviceLoop_chain now n _ _⟩
        · exact ⟨rfl, hstep, rfl⟩

theorem serviceCalls_chain : ∀ (cs : List ((Nat → UInt64) × List RxTurn)) (m : HostMemory),
    ∃ m', Chain m (serviceCalls cs m) m'
  | [], m              => ⟨m, rfl⟩
  | (now, rx) :: cs, m => by
    obtain ⟨m', h⟩ := serviceCalls_chain cs (serviceRtlInitiatedTransactions now rx m).memory
    exact ⟨m', chain_append (serviceLoop_chain now 3 rx { memory := m }) h⟩

/-! ## What the memory holds -/

def HostMemory.byte (m : HostMemory) (x : Nat) : UInt8 := m.data (BitVec.ofNat 64 x)

def Served.Succeeds (e : Served) : Prop := ∃ rsp, e.reply = some rsp ∧ rsp.header.isStatus .success = true

instance (e : Served) : Decidable e.Succeeds :=
  match h : e.reply with
  | none     => .isFalse (fun hs => by obtain ⟨_, hr, -⟩ := hs; rw [h] at hr; cases hr)
  | some rsp =>
    decidable_of_iff (rsp.header.isStatus .success = true)
      ⟨fun hs => ⟨rsp, h, hs⟩, fun hs => by obtain ⟨_, hr, hs⟩ := hs; rw [h] at hr; cases hr; exact hs⟩

def Served.patch (e : Served) : Option (Patch UInt8) :=
  if e.msg.header.isType .dmaWriteReq = true ∧ e.Succeeds then some ⟨e.msg.header.address.toNat, e.msg.payload⟩
  else none

def patches (es : List Served) : List (Patch UInt8) := es.filterMap Served.patch

theorem Served.Step.read_succeeds_iff {e : Served} (h : e.Step) (hr : e.msg.header.isType .dmaReadReq = true) :
    e.Succeeds ↔ e.msg.header.transferLen ≠ 0 ∧
      e.msg.header.address.toNat + e.msg.header.transferLen.toNat ≤ e.before.size.toNat := by
  obtain ⟨-, data, status, now, hreply, hiff, -⟩ := h.read hr
  rw [← hiff, Served.Succeeds, hreply]
  constructor
  · rintro ⟨rsp, ⟨⟩, hok⟩
    simpa [sendDmaReadResponse, isStatus_makeHeader] using hok
  · rintro rfl
    exact ⟨_, rfl, rfl⟩

theorem Served.Step.write_succeeds_iff {e : Served} (h : e.Step) (hw : e.msg.header.isType .dmaWriteReq = true) :
    (e.Succeeds ↔ e.msg.payload = [] ∨
        e.msg.header.address.toNat + e.msg.payload.length ≤ e.before.size.toNat) ∧
      e.after = if e.Succeeds then
          { e.before with data := Mem.write e.before.data e.msg.header.address.toBitVec e.msg.payload }
        else e.before := by
  obtain ⟨status, now, hreply, hiff, hafter⟩ := h.write hw
  have hsucc : e.Succeeds ↔ status = .success := by
    rw [Served.Succeeds, hreply]
    constructor
    · rintro ⟨rsp, ⟨⟩, hok⟩
      simpa [sendDmaWriteResponse, isStatus_makeHeader] using hok
    · rintro rfl
      exact ⟨_, rfl, rfl⟩
  simp only [hsucc]
  exact ⟨hiff, hafter⟩

theorem Served.Step.after_eq {e : Served} (h : e.Step) (hw : e.msg.header.isType .dmaWriteReq = false) :
    e.after = e.before := by
  by_cases hr : e.msg.header.isType .dmaReadReq = true
  · exact (h.read hr).1
  · exact (h.other (Bool.eq_false_iff.2 hr) hw).2

/-- **A step keeps the size, and puts its patch over what was there.** -/
theorem Served.Step.byte_eq {e : Served} (h : e.Step) :
    e.after.size = e.before.size ∧
      ∀ x < 2 ^ 64, e.after.byte x = lastByte e.before.byte e.patch.toList x := by
  unfold Served.patch
  by_cases hw : e.msg.header.isType .dmaWriteReq = true
  · obtain ⟨hiff, hafter⟩ := h.write_succeeds_iff hw
    by_cases hs : e.Succeeds
    · have hfits : e.msg.header.address.toBitVec.toNat + e.msg.payload.length ≤ 2 ^ 64 := by
        have hsize := e.before.size.toNat_lt
        have haddr := e.msg.header.address.toNat_lt
        have hin := hiff.1 hs
        rw [UInt64.toNat_toBitVec]
        rcases hin with hnil | hin
        · rw [hnil, List.length_nil]
          omega
        · omega
      rw [hafter, if_pos hs, if_pos ⟨hw, hs⟩]
      refine ⟨rfl, fun x hx => ?_⟩
      rw [Option.toList_some, lastByte_singleton]
      exact write_ofNat e.before.data hfits hx
    · rw [hafter, if_neg hs, if_neg (fun hc => hs hc.2)]
      exact ⟨rfl, fun _ _ => rfl⟩
  · rw [h.after_eq (Bool.eq_false_iff.2 hw), if_neg (fun hc => hw hc.1)]
    exact ⟨rfl, fun _ _ => rfl⟩

theorem patches_cons (e : Served) (es : List Served) : patches (e :: es) = e.patch.toList ++ patches es := by
  unfold patches
  cases h : e.patch with
  | none   => rw [List.filterMap_cons_none h, Option.toList_none, List.nil_append]
  | some p => rw [List.filterMap_cons_some h, Option.toList_some, List.singleton_append]

/-- **After a history the memory holds at each address the last byte written there.** -/
theorem Chain.byte_eq : ∀ {es : List Served} {m m' : HostMemory}, Chain m es m' →
    m'.size = m.size ∧ ∀ x < 2 ^ 64, m'.byte x = lastByte m.byte (patches es) x
  | [], _, _, h      => by
    cases h
    exact ⟨rfl, fun _ _ => rfl⟩
  | e :: es, m, m', h => by
    obtain ⟨rfl, hstep, hrest⟩ := h
    obtain ⟨hsize, hbyte⟩ := hstep.byte_eq
    obtain ⟨hsizes, hbytes⟩ := hrest.byte_eq
    refine ⟨hsizes.trans hsize, fun x hx => ?_⟩
    rw [patches_cons, lastByte_append, hbytes x hx]
    exact lastByte_congr (hbyte x hx) _

/-! ## A bounded memory -/

/-- How a message is served after the history `pre` of a memory that held `m` at first. -/
structure Proper (m : HostMemory) (pre : List Served) (e : Served) : Prop where
  readReply  : e.msg.header.isType .dmaReadReq = true → ∃ rsp, e.reply = some rsp ∧
    rsp.header.txnId = e.msg.header.txnId ∧ rsp.header.isType .dmaReadRsp = true
  writeReply : e.msg.header.isType .dmaWriteReq = true → ∃ rsp, e.reply = some rsp ∧
    rsp.header.txnId = e.msg.header.txnId ∧ rsp.header.isType .dmaWriteRsp = true
  readOk     : e.msg.header.isType .dmaReadReq = true → 0 < e.msg.header.transferLen.toNat →
    (e.Succeeds ↔ e.msg.header.address.toNat + e.msg.header.transferLen.toNat ≤ m.size.toNat)
  readData   : e.msg.header.isType .dmaReadReq = true → ∀ rsp, e.reply = some rsp →
    rsp.header.isStatus .success = true → rsp.payload = (List.range e.msg.header.transferLen.toNat).map
      (fun k => lastByte m.byte (patches pre) (e.msg.header.address.toNat + k))
  writeOk    : e.msg.header.isType .dmaWriteReq = true →
    (e.Succeeds ↔ e.msg.payload = [] ∨ e.msg.header.address.toNat + e.msg.payload.length ≤ m.size.toNat)
  writeExact : e.msg.header.isType .dmaWriteReq = true → e.Succeeds → ∀ x < 2 ^ 64,
    e.after.byte x = if e.msg.header.address.toNat ≤ x ∧ x < e.msg.header.address.toNat + e.msg.payload.length then
        e.msg.payload.getD (x - e.msg.header.address.toNat) 0
      else e.before.byte x
  unchanged  : ¬ (e.msg.header.isType .dmaWriteReq = true ∧ e.Succeeds) → e.after = e.before
  before     : e.before.size = m.size ∧ ∀ x < 2 ^ 64, e.before.byte x = lastByte m.byte (patches pre) x

theorem Served.Step.read_payload {e : Served} (h : e.Step) (hr : e.msg.header.isType .dmaReadReq = true) {rsp : Message}
    (hreply : e.reply = some rsp) (hok : rsp.header.isStatus .success = true) :
    rsp.payload = (List.range e.msg.header.transferLen.toNat).map
      (fun k => e.before.byte (e.msg.header.address.toNat + k)) := by
  obtain ⟨-, data, status, now, hreply', -, hdata⟩ := h.read hr
  rw [hreply] at hreply'
  cases hreply'
  have hsucc : status = .success := by simpa [sendDmaReadResponse, isStatus_makeHeader] using hok
  refine (hdata hsucc).trans (List.map_congr_left (fun k _ => ?_))
  rw [HostMemory.byte, BitVec.ofNat_add, ← UInt64.toNat_toBitVec, BitVec.ofNat_toNat, BitVec.setWidth_eq]

/-- **A step after a history is served properly.** -/
theorem Chain.proper {m : HostMemory} {pre : List Served} {e : Served} (hchain : Chain m pre e.before) (h : e.Step) :
    Proper m pre e := by
  obtain ⟨hsize, hbytes⟩ := hchain.byte_eq
  refine ⟨fun hr => ?_, fun hw => ?_, fun hr hpos => ?_, fun hr rsp hreply hok => ?_, fun hw => ?_,
    fun hw hs x hx => ?_, fun hno => ?_, hsize, hbytes⟩
  · obtain ⟨-, data, status, now, hreply, -, -⟩ := h.read hr
    exact ⟨_, hreply, rfl, rfl⟩
  · obtain ⟨status, now, hreply, -, -⟩ := h.write hw
    exact ⟨_, hreply, rfl, rfl⟩
  · rw [h.read_succeeds_iff hr, hsize]
    refine and_iff_right (fun h0 => ?_)
    rw [h0] at hpos
    exact Nat.lt_irrefl 0 hpos
  · -- a successful read lies inside, so that every address of it is one of the memory
    have hin := ((h.read_succeeds_iff hr).1 ⟨rsp, hreply, hok⟩).2
    have hbound := e.before.size.toNat_lt
    rw [h.read_payload hr hreply hok]
    refine List.map_congr_left (fun k hk => hbytes _ ?_)
    have hk := List.mem_range.1 hk
    omega
  · rw [(h.write_succeeds_iff hw).1, hsize]
  · let p : Patch UInt8 := ⟨e.msg.header.address.toNat, e.msg.payload⟩
    rw [h.byte_eq.2 x hx, Served.patch, if_pos ⟨hw, hs⟩, Option.toList_some, lastByte_singleton]
    by_cases hin : e.msg.header.address.toNat ≤ x ∧ x < e.msg.header.address.toNat + e.msg.payload.length
    · have hlt : x - e.msg.header.address.toNat < e.msg.payload.length := by omega
      rw [if_pos hin, if_pos (show p.covers x from hin)]
      simp [hlt]
    · rw [if_neg hin, if_neg (show ¬ p.covers x from hin)]
  · by_cases hw : e.msg.header.isType .dmaWriteReq = true
    · rw [(h.write_succeeds_iff hw).2, if_neg (fun hs => hno ⟨hw, hs⟩)]
    · exact h.after_eq (Bool.eq_false_iff.2 hw)

/-- **The DMA service is a bounded memory.**  Whatever comes over the connections, in any number of calls and for a
memory of any size: each request is answered once, succeeds exactly if it lies inside, reads what was last written, and
changes exactly what it writes. -/
theorem service_bounded_memory (m : HostMemory) (calls : List ((Nat → UInt64) × List RxTurn)) (pre post : List Served)
    (e : Served) (h : serviceCalls calls m = pre ++ e :: post) : Proper m pre e := by
  obtain ⟨m', hchain⟩ := serviceCalls_chain calls m
  rw [h] at hchain
  exact hchain.split.1.proper hchain.split.2

/-- A write of three bytes, and a read of one of them and the byte after. -/
theorem service_bounded_memory_overlap :
    let w : Message := ⟨makeHeader .dmaWriteReq 7 5 0 .success 0 3, [1, 2, 3]⟩
    let r : Message := ⟨makeHeader .dmaReadReq 8 7 0 .success 0 0 kFlagNone 2, []⟩
    let turns : List RxTurn := [⟨[.revents false false false true], .data (w.bytes ++ r.bytes)⟩]
    ∃ e f, serviceCalls [(fun _ => 0, turns)] ⟨64, fun _ => 9⟩ = [e, f] ∧ e.msg = w ∧ f.msg = r ∧
      (∃ rsp, f.reply = some rsp ∧ rsp.payload = [3, 9]) ∧ Proper ⟨64, fun _ => 9⟩ [e] f := by
  intro w r turns
  have hmsgs : (serviceCalls [(fun _ => 0, turns)] ⟨64, fun _ => 9⟩).map (fun e => (e.msg, e.reply.map (·.payload))) =
      [(w, some []), (r, some [3, 9])] := by
    decide +kernel
  obtain ⟨e, es, he, her, hes⟩ := List.map_eq_cons_iff.1 hmsgs
  obtain ⟨f, fs, hf, hfr, hfs⟩ := List.map_eq_cons_iff.1 hes
  cases List.map_eq_nil_iff.1 hfs
  subst hf
  have hproper := service_bounded_memory ⟨64, fun _ => 9⟩ [(fun _ => 0, turns)] [e] [] f he
  obtain ⟨rsp, hrsp, hpay⟩ := Option.map_eq_some_iff.1 (congrArg Prod.snd hfr)
  exact ⟨e, f, he, congrArg Prod.fst her, congrArg Prod.fst hfr, ⟨rsp, hrsp, hpay⟩, hproper⟩

end HostClient
end Vip
