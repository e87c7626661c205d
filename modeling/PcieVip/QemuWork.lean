import PcieVip.Joint
import PcieVip.QemuRecv
/-!
# QemuWork — the bottom half of the device model (`hw/misc/pcie-vip.c` of the QEMU patch)

The reader thread hands requests of the endpoint to `pcie_vip_process_work`, which QEMU runs as a bottom half.  The
machine is the one of `QemuDevice` with three things more: the reader inserts an item and schedules the bottom half in
two steps, the bottom half takes items one at a time, and what it asks of the rest of QEMU for an item is recorded.  Of
QEMU it is assumed that a bottom half scheduled during or after a run is run again: the flag is cleared when a run
begins.
-/
namespace Vip
namespace Qemu

open Joint (processWork)
open Run (run)

/-! ## What is received -/

/-- `mics_recv`, from the bytes of its two `recv_all` calls. -/
def micsRecv (wire payload : List UInt8) : Option MicsMessage :=
  if wire.length = micsHeaderSize.toNat then
    match micsDecodeHeader wire with
    | none   => none
    | some h => if payload.length = h.payloadLen.toNat then some ⟨h, payload⟩ else none
  else none

theorem micsRecv_payload {wire payload : List UInt8} {m : MicsMessage} (h : micsRecv wire payload = some m) :
    m.payload.length = m.h.payloadLen.toNat := by
  unfold micsRecv at h
  split at h
  · split at h
    · cases h
    · split at h
      · rename_i hlen
        cases h
        exact hlen
      · cases h
  · cases h

/-- **Every message of a connection is one that `micsRecv` gives for some bytes.** -/
theorem micsRecv_of_micsRecvFrom {rx : List MicsRxTurn} {m : MicsMessage} (h : (micsRecvFrom rx).1 = some m) :
    ∃ wire payload, micsRecv wire payload = some m := by
  unfold micsRecvFrom at h
  dsimp only at h
  split at h
  · cases h
  · rename_i hok
    have hwire : (recvAll 64 rx).got.length = micsHeaderSize.toNat := length_recvAll rx 64 (by simpa using hok)
    split at h
    · cases h
    · rename_i hdr hdec
      refine ⟨(recvAll 64 rx).got, m.payload, ?_⟩
      rw [micsRecv, if_pos hwire, hdec]
      dsimp only
      split at h
      · rename_i hzero
        cases h
        rw [hzero]
        rfl
      · split at h
        · rename_i hbody
          cases h
          rw [if_pos (length_recvAll _ _ hbody)]
        · cases h

def MicsMessage.isRequest (m : MicsMessage) : Bool := !m.isResponse && m.isWork

/-! ## One item -/

def pcieVipMsixVectors : UInt64 := 4

/-- What is asked of the rest of QEMU; the flag of a DMA is whether it returned MEMTX_OK. -/
inductive Effect where
  | dmaRead (address : UInt64) (len : UInt32) (ok : Bool)
  | dmaWrite (address : UInt64) (data : List UInt8) (len : UInt32) (ok : Bool)
  | msixNotify (vector : UInt64)
  | send (m : MicsMessage)
  deriving DecidableEq, Repr

def Effect.sent? : Effect → Option MicsMessage
  | .send m => some m
  | _       => none

def Effect.notified? : Effect → Option UInt64
  | .msixNotify v => some v
  | _             => none

def Effect.isDma : Effect → Bool
  | .dmaRead _ _ _    => true
  | .dmaWrite _ _ _ _ => true
  | _                 => false

def Effect.succeeded : Effect → Bool
  | .dmaRead _ _ ok    => ok
  | .dmaWrite _ _ _ ok => ok
  | _                  => false

/-- The body of the loop of `pcie_vip_process_work`. -/
def workEffects (maxTransfer : UInt32) (w : MicsMessage) (ok : Bool) (data : List UInt8) (now : UInt64) : List Effect :=
  let len := w.h.transferLen
  let reply := (processWork maxTransfer w ok data now).toList.map Effect.send
  if w.h.type = MicsType.dmaReadReq.code then
    (if len ≠ 0 ∧ len ≤ maxTransfer then [.dmaRead w.h.address len ok] else []) ++ reply
  else if w.h.type = MicsType.dmaWriteReq.code then
    (if len ≠ 0 ∧ len ≤ maxTransfer ∧ len = w.h.payloadLen then [.dmaWrite w.h.address w.payload len ok] else []) ++
      reply
  else if w.h.type = MicsType.msix.code then
    if w.h.address < pcieVipMsixVectors then [.msixNotify w.h.address] else []
  else []

theorem send_mem_workEffects {maxTransfer : UInt32} {w r : MicsMessage} {ok : Bool} {data : List UInt8} {now : UInt64} :
    .send r ∈ workEffects maxTransfer w ok data now ↔ processWork maxTransfer w ok data now = some r := by
  unfold workEffects
  by_cases hr : w.h.type = MicsType.dmaReadReq.code
  · rw [if_pos hr]
    split <;> simp
  · rw [if_neg hr]
    by_cases hw : w.h.type = MicsType.dmaWriteReq.code
    · rw [if_pos hw]
      split <;> simp
    · have hnone : processWork maxTransfer w ok data now = none := by
        rw [processWork, if_neg hr, if_neg hw]
      rw [if_neg hw, hnone]
      split_ifs <;> simp

def responseType (w : MicsMessage) : Option MicsType :=
  if w.h.type = MicsType.dmaReadReq.code then some .dmaReadRsp
  else if w.h.type = MicsType.dmaWriteReq.code then some .dmaWriteRsp
  else none

def MicsMessage.Bounded (maxTransfer : UInt32) (w : MicsMessage) : Prop :=
  1 ≤ w.h.transferLen.toNat ∧ w.h.transferLen ≤ maxTransfer

structure Served (maxTransfer : UInt32) (w : MicsMessage) (fx : List Effect) : Prop where
  reads    : ∀ a len ok, .dmaRead a len ok ∈ fx → w.h.type = MicsType.dmaReadReq.code ∧ a = w.h.address ∧
    len = w.h.transferLen ∧ 1 ≤ len.toNat ∧ len ≤ maxTransfer
  writes   : ∀ a data len ok, .dmaWrite a data len ok ∈ fx → w.h.type = MicsType.dmaWriteReq.code ∧ a = w.h.address ∧
    len = w.h.transferLen ∧ 1 ≤ len.toNat ∧ len ≤ maxTransfer ∧ data = w.payload ∧ data.length = len.toNat
  /-- A request within bounds makes its call, and no other. -/
  reading  : w.h.type = MicsType.dmaReadReq.code → w.Bounded maxTransfer →
    ∃ ok, fx.filter Effect.isDma = [.dmaRead w.h.address w.h.transferLen ok]
  writing  : w.h.type = MicsType.dmaWriteReq.code → w.Bounded maxTransfer →
    w.payload.length = w.h.transferLen.toNat →
    ∃ ok, fx.filter Effect.isDma = [.dmaWrite w.h.address w.payload w.h.transferLen ok]
  answered : ∀ t, responseType w = some t → ∃ r, fx.filterMap Effect.sent? = [r] ∧ r.h.txnId = w.h.txnId ∧
    r.h.type = t.code ∧ (r.h.status = micsStatusSuccess ↔ ∃ e ∈ fx, e.succeeded = true)
  silent   : responseType w = none → fx.filterMap Effect.sent? = []
  notified : fx.filterMap Effect.notified? =
    if w.h.type = MicsType.msix.code ∧ w.h.address < pcieVipMsixVectors then [w.h.address] else []

theorem one_le_toNat {n : UInt32} (h : n ≠ 0) : 1 ≤ n.toNat := by
  have : n.toNat ≠ 0 := fun h0 => h (UInt32.toNat_inj.1 h0)
  omega

theorem ne_zero_of_one_le {n : UInt32} (h : 1 ≤ n.toNat) : n ≠ 0 := by
  rintro rfl
  exact absurd h (by decide)

theorem status_success_iff (p : Prop) [Decidable p] :
    (if decide p = true then micsStatusSuccess else 6) = micsStatusSuccess ↔ p := by
  by_cases h : p <;> simp [h, micsStatusSuccess]

theorem responseType_msix {w : MicsMessage} (h : w.h.type = MicsType.msix.code) : responseType w = none := by
  unfold responseType
  rw [h]
  rfl

theorem Served.of_reply {maxTransfer : UInt32} {w r : MicsMessage} {t : MicsType} (call : Option Effect)
    (ht : responseType w = some t) (htxn : r.h.txnId = w.h.txnId) (htype : r.h.type = t.code)
    (hstatus : r.h.status = micsStatusSuccess ↔ ∃ e ∈ call, e.succeeded = true)
    (hcall : ∀ e ∈ call, w.Bounded maxTransfer ∧
      ((w.h.type = MicsType.dmaReadReq.code ∧ ∃ ok, e = .dmaRead w.h.address w.h.transferLen ok) ∨
        (w.h.type = MicsType.dmaWriteReq.code ∧ w.payload.length = w.h.transferLen.toNat ∧
          ∃ ok, e = .dmaWrite w.h.address w.payload w.h.transferLen ok)))
    (hread : w.h.type = MicsType.dmaReadReq.code → w.Bounded maxTransfer → call ≠ none)
    (hwrite : w.h.type = MicsType.dmaWriteReq.code → w.Bounded maxTransfer →
      w.payload.length = w.h.transferLen.toNat → call ≠ none) :
    Served maxTransfer w (call.toList ++ [.send r]) := by
  have hmem : ∀ e ∈ call.toList ++ [Effect.send r], e ∈ call ∨ e = .send r := by
    intro e he
    simpa using he
  have hquiet : call.toList.filterMap Effect.sent? = [] ∧ call.toList.filterMap Effect.notified? = [] := by
    cases call with
    | none => exact ⟨rfl, rfl⟩
    | some e =>
      obtain ⟨-, ⟨-, ok, rfl⟩ | ⟨-, -, ok, rfl⟩⟩ := hcall e rfl
      · exact ⟨rfl, rfl⟩
      · exact ⟨rfl, rfl⟩
  have hmsix : ¬ (w.h.type = MicsType.msix.code ∧ w.h.address < pcieVipMsixVectors) := by
    rintro ⟨h, -⟩
    rw [responseType_msix h] at ht
    cases ht
  refine ⟨?_, ?_, ?_, ?_, ?_, ?_, ?_⟩
  · intro a len ok he
    rcases hmem _ he with he | he
    · obtain ⟨⟨hpos, hmax⟩, ⟨htype, ok', h⟩ | ⟨-, -, ok', h⟩⟩ := hcall _ he
      · cases h
        exact ⟨htype, rfl, rfl, hpos, hmax⟩
      · cases h
    · cases he
  · intro a data len ok he
    rcases hmem _ he with he | he
    · obtain ⟨⟨hpos, hmax⟩, ⟨-, ok', h⟩ | ⟨htype, hlen, ok', h⟩⟩ := hcall _ he
      · cases h
      · cases h
        exact ⟨htype, rfl, rfl, hpos, hmax, rfl, hlen⟩
    · cases he
  · intro htype hb
    obtain ⟨e, rfl⟩ := Option.ne_none_iff_exists'.1 (hread htype hb)
    obtain ⟨-, ⟨-, ok, rfl⟩ | ⟨hother, -⟩⟩ := hcall e rfl
    · exact ⟨ok, rfl⟩
    · cases htype.symm.trans hother
  · intro htype hb hlen
    obtain ⟨e, rfl⟩ := Option.ne_none_iff_exists'.1 (hwrite htype hb hlen)
    obtain ⟨-, ⟨hother, -⟩ | ⟨-, -, ok, rfl⟩⟩ := hcall e rfl
    · cases htype.symm.trans hother
    · exact ⟨ok, rfl⟩
  · intro t' ht'
    rw [ht] at ht'
    cases ht'
    refine ⟨r, ?_, htxn, htype, hstatus.trans ⟨?_, ?_⟩⟩
    · rw [List.filterMap_append, hquiet.1]
      rfl
    · rintro ⟨e, he, hok⟩
      exact ⟨e, List.mem_append_left _ (Option.mem_toList.2 he), hok⟩
    · rintro ⟨e, he, hok⟩
      rcases hmem e he with he | rfl
      · exact ⟨e, he, hok⟩
      · cases hok
  · intro h
    rw [ht] at h
    cases h
  · rw [List.filterMap_append, hquiet.2, if_neg hmsix]
    rfl

theorem served_dmaRead {maxTransfer : UInt32} {w : MicsMessage} (ht : w.h.type = MicsType.dmaReadReq.code) (ok : Bool)
    (data : List UInt8) (now : UInt64) : Served maxTransfer w (workEffects maxTransfer w ok data now) := by
  have hrsp : responseType w = some .dmaReadRsp := if_pos ht
  simp only [workEffects, processWork, if_pos ht]
  by_cases hlen : w.h.transferLen ≠ 0 ∧ w.h.transferLen ≤ maxTransfer
  · rw [if_pos hlen]
    refine Served.of_reply (some (.dmaRead w.h.address w.h.transferLen ok)) hrsp rfl rfl ?_ ?_
      (fun _ _ => Option.some_ne_none _) (fun _ _ _ => Option.some_ne_none _)
    · rw [status_success_iff]
      simp [hlen, Effect.succeeded]
    · rintro e ⟨⟩
      exact ⟨⟨one_le_toNat hlen.1, hlen.2⟩, .inl ⟨ht, ok, rfl⟩⟩
  · rw [if_neg hlen]
    have hbad : ¬ (w.h.transferLen ≠ 0 ∧ w.h.transferLen ≤ maxTransfer ∧ ok = true) := fun h => hlen ⟨h.1, h.2.1⟩
    have hout : ¬ w.Bounded maxTransfer := fun h => hlen ⟨ne_zero_of_one_le h.1, h.2⟩
    refine Served.of_reply none hrsp rfl rfl ?_ (fun e he => (by cases he)) (fun _ h => absurd h hout)
      (fun _ h => absurd h hout)
    rw [status_success_iff]
    exact ⟨fun h => absurd h hbad, fun ⟨_, he, _⟩ => (by cases he)⟩

theorem served_dmaWrite {maxTransfer : UInt32} {w : MicsMessage} (ht : w.h.type = MicsType.dmaWriteReq.code)
    (hpay : w.payload.length = w.h.payloadLen.toNat) (ok : Bool) (data : List UInt8) (now : UInt64) :
    Served maxTransfer w (workEffects maxTransfer w ok data now) := by
  have hread : w.h.type ≠ MicsType.dmaReadReq.code := by
    rw [ht]
    decide
  have hrsp : responseType w = some .dmaWriteRsp := by
    rw [responseType, if_neg hread, if_pos ht]
  simp only [workEffects, processWork, if_neg hread, if_pos ht]
  by_cases hlen : w.h.transferLen ≠ 0 ∧ w.h.transferLen ≤ maxTransfer ∧ w.h.transferLen = w.h.payloadLen
  · rw [if_pos hlen]
    refine Served.of_reply (some (.dmaWrite w.h.address w.payload w.h.transferLen ok)) hrsp rfl rfl ?_ ?_
      (fun _ _ => Option.some_ne_none _) (fun _ _ _ => Option.some_ne_none _)
    · rw [status_success_iff]
      simp only [Option.mem_def, Option.some.injEq, exists_eq_left', Effect.succeeded]
      exact ⟨fun h => h.2.2.2, fun h => ⟨hlen.1, hlen.2.1, hlen.2.2, h⟩⟩
    · rintro e ⟨⟩
      exact ⟨⟨one_le_toNat hlen.1, hlen.2.1⟩, .inr ⟨ht, by rw [hpay, hlen.2.2], ok, rfl⟩⟩
  · rw [if_neg hlen]
    have hbad : ¬ (w.h.transferLen ≠ 0 ∧ w.h.transferLen ≤ maxTransfer ∧ w.h.transferLen = w.h.payloadLen ∧
        ok = true) :=
      fun h => hlen ⟨h.1, h.2.1, h.2.2.1⟩
    have hout : w.Bounded maxTransfer → w.payload.length ≠ w.h.transferLen.toNat := fun h heq =>
      hlen ⟨ne_zero_of_one_le h.1, h.2, UInt32.toNat_inj.1 (heq.symm.trans hpay)⟩
    refine Served.of_reply none hrsp rfl rfl ?_ (fun e he => (by cases he)) (fun h => absurd h hread)
      (fun _ hb hlen => absurd hlen (hout hb))
    rw [status_success_iff]
    exact ⟨fun h => absurd h hbad, fun ⟨_, he, _⟩ => (by cases he)⟩

theorem served_msix {maxTransfer : UInt32} {w : MicsMessage} (ht : w.h.type = MicsType.msix.code) (ok : Bool)
    (data : List UInt8) (now : UInt64) : Served maxTransfer w (workEffects maxTransfer w ok data now) := by
  have hread : w.h.type ≠ MicsType.dmaReadReq.code := by
    rw [ht]
    decide
  have hwrite : w.h.type ≠ MicsType.dmaWriteReq.code := by
    rw [ht]
    decide
  simp only [workEffects, if_neg hread, if_neg hwrite, if_pos ht]
  refine ⟨?_, ?_, fun h => absurd h hread, fun h => absurd h hwrite, ?_, ?_, ?_⟩
  · intro a len ok' he
    split at he <;> simp at he
  · intro a data' len ok' he
    split at he <;> simp at he
  · intro t h
    rw [responseType_msix ht] at h
    cases h
  · intro _
    split <;> rfl
  · by_cases hvec : w.h.address < pcieVipMsixVectors
    · rw [if_pos hvec, if_pos ⟨ht, hvec⟩]
      rfl
    · rw [if_neg hvec, if_neg (fun h => hvec h.2)]
      rfl

/-- **Every queued request is served**, whatever its fields and whatever the DMA returns. -/
theorem workEffects_served (maxTransfer : UInt32) {w : MicsMessage} (hw : w.isRequest = true)
    (hpay : w.payload.length = w.h.payloadLen.toNat) (ok : Bool) (data : List UInt8) (now : UInt64) :
    Served maxTransfer w (workEffects maxTransfer w ok data now) := by
  simp only [MicsMessage.isRequest, MicsMessage.isWork, Bool.and_eq_true, Bool.or_eq_true, beq_iff_eq] at hw
  rcases hw.2 with (h | h) | h
  · exact served_dmaRead h ok data now
  · exact served_dmaWrite h hpay ok data now
  · exact served_msix h ok data now

/-! ## The reader and the bottom half -/

def ReaderPc.request : ReaderPc → List MicsMessage
  | .holding m => if m.isRequest then [m] else []
  | _          => []

/-- Where the bottom half stands: not running, about to look at the queue, or with an item. -/
inductive BhPc where
  | idle
  | looking
  | working (w : MicsMessage)
  deriving DecidableEq, Repr

def BhPc.item : BhPc → List MicsMessage
  | .working w => [w]
  | _          => []

structure WorkState where
  dev        : Device := Device.init
  /-- The reader is between the insertion and `qemu_bh_schedule`. -/
  scheduling : Bool := false
  scheduled  : Bool := false
  bh         : BhPc := .idle
  -- history
  arrived    : List MicsMessage := []
  handled    : List (MicsMessage × List Effect) := []
  deriving DecidableEq, Repr

def WorkState.init : WorkState := {}

inductive WorkEvent where
  | begin (r : RpcRequest) (now : UInt64)
  | rpc (i : Nat) (e : RpcEvent)
  | recv (wire payload : List UInt8)
  | file
  | schedule
  | readerExit
  /-- QEMU runs the bottom half. -/
  | bhRun
  | take
  | process (ok : Bool) (data : List UInt8) (now : UInt64)
  deriving DecidableEq, Repr

def WorkState.recv (s : WorkState) (m : MicsMessage) : Option WorkState :=
  if s.scheduling then none
  else
    (deviceStep s.dev (.recv m)).map
      (fun dev => { s with dev, arrived := s.arrived ++ if m.isRequest then [m] else [] })

def workStep (maxTransfer : UInt32) (s : WorkState) (e : WorkEvent) : Option WorkState :=
  match e with
  | .begin r now         => (deviceStep s.dev (.begin r now)).map (fun dev => { s with dev })
  | .rpc i e             => (deviceStep s.dev (.rpc i e)).map (fun dev => { s with dev })
  | .recv wire payload   =>
    match micsRecv wire payload with
    | none   => none
    | some m => s.recv m
  | .file                =>
    if s.scheduling then none
    else (deviceStep s.dev .file).map (fun dev => { s with dev, scheduling := !s.dev.reader.request.isEmpty })
  | .schedule            => if s.scheduling then some { s with scheduling := false, scheduled := true } else none
  | .readerExit          =>
    if s.scheduling then none else (deviceStep s.dev .readerExit).map (fun dev => { s with dev })
  | .bhRun               =>
    if s.scheduled ∧ s.bh = .idle then some { s with scheduled := false, bh := .looking } else none
  | .take                =>
    match s.bh, s.dev.workQueue with
    | .looking, []     => some { s with bh := .idle }
    | .looking, w :: q => some { s with bh := .working w, dev := { s.dev with workQueue := q } }
    | _, _             => none
  | .process ok data now =>
    match s.bh with
    | .working w => some { s with bh := .looking, handled := s.handled ++ [(w, workEffects maxTransfer w ok data now)] }
    | _          => none

/-! ## What the device's own steps do to the queue -/

theorem begin_work (s : Device) (r : RpcRequest) (now : UInt64) :
    (s.begin r now).workQueue = s.workQueue ∧ (s.begin r now).reader = s.reader := by
  unfold Device.begin
  split
  · exact ⟨rfl, rfl⟩
  · exact ⟨rfl, rfl⟩

theorem rpcStep_work {s s' : Device} {i : Nat} {c : RpcCall} {e : RpcEvent} (h : rpcStep s i c e = some s') :
    s'.workQueue = s.workQueue ∧ s'.reader = s.reader := by
  unfold rpcStep at h
  split at h
  · split at h
    · cases h; exact ⟨rfl, rfl⟩
    · cases h; exact ⟨rfl, rfl⟩
  · cases h; exact ⟨rfl, rfl⟩
  · cases h; exact ⟨rfl, rfl⟩
  · split at h
    · cases h
    · cases h
      unfold Device.conclude
      split
      · exact ⟨rfl, rfl⟩
      · exact ⟨rfl, rfl⟩
  · cases h; exact ⟨rfl, rfl⟩
  · cases h

theorem file_work {s s' : Device} (h : deviceStep s .file = some s') :
    s'.workQueue = s.workQueue ++ s.reader.request ∧ s'.reader = .receiving := by
  unfold deviceStep at h
  dsimp only at h
  split at h
  · rename_i m hm
    cases h
    refine ⟨?_, rfl⟩
    rw [hm]
    unfold Device.file ReaderPc.request MicsMessage.isRequest
    by_cases hr : m.isResponse = true
    · simp only [hr, if_true, Bool.not_true, Bool.false_and]
      split <;> simp
    · by_cases hw : m.isWork = true
      · simp [hr, hw]
      · simp [hr, hw]
  · cases h

/-! ## Every run -/

/-- What arrived has been handled, is being handled, is queued or is in the reader's hands, in this order; no wake-up is
lost; and every item was served. -/
structure WorkInv (maxTransfer : UInt32) (s : WorkState) : Prop where
  order  : s.arrived = s.handled.map Prod.fst ++ s.bh.item ++ s.dev.workQueue ++ s.dev.reader.request
  sized  : ∀ m ∈ s.arrived, m.isRequest = true ∧ m.payload.length = m.h.payloadLen.toNat
  awake  : s.scheduling = false → s.dev.workQueue ≠ [] → s.scheduled = true ∨ s.bh ≠ .idle
  served : ∀ x ∈ s.handled, Served maxTransfer x.1 x.2

theorem workInv_init (maxTransfer : UInt32) : WorkInv maxTransfer WorkState.init :=
  ⟨rfl, fun _ h => (by cases h), fun _ h => absurd rfl h, fun _ h => (by cases h)⟩

theorem WorkInv.device {maxTransfer : UInt32} {s : WorkState} (h : WorkInv maxTransfer s) {dev : Device}
    (hd : dev.workQueue = s.dev.workQueue ∧ dev.reader = s.dev.reader) : WorkInv maxTransfer { s with dev } :=
  ⟨by rw [hd.1, hd.2]; exact h.order, h.sized, by rw [hd.1]; exact h.awake, h.served⟩

theorem WorkInv.recv {maxTransfer : UInt32} {s s' : WorkState} (h : WorkInv maxTransfer s) {m : MicsMessage}
    (hm : m.payload.length = m.h.payloadLen.toNat) (he : s.recv m = some s') : WorkInv maxTransfer s' := by
  unfold WorkState.recv at he
  split at he
  · cases he
  · obtain ⟨dev, hdev, hs'⟩ := Option.map_eq_some_iff.1 he
    simp only [deviceStep] at hdev
    split at hdev
    · rename_i hr
      cases hdev
      subst hs'
      have horder := h.order
      rw [hr] at horder
      simp only [ReaderPc.request, List.append_nil] at horder
      refine ⟨?_, ?_, h.awake, h.served⟩
      · dsimp only [ReaderPc.request]
        rw [horder]
      · intro x hx
        rcases List.mem_append.1 hx with hx | hx
        · exact h.sized x hx
        · split at hx
          · rename_i hreq
            rw [List.mem_singleton.1 hx]
            exact ⟨hreq, hm⟩
          · cases hx
    · cases hdev

theorem WorkInv.file {maxTransfer : UInt32} {s : WorkState} (h : WorkInv maxTransfer s) (hs : s.scheduling = false)
    {dev : Device} (hd : deviceStep s.dev .file = some dev) :
    WorkInv maxTransfer { s with dev, scheduling := !s.dev.reader.request.isEmpty } := by
  obtain ⟨hq, hr⟩ := file_work hd
  refine ⟨?_, h.sized, ?_, h.served⟩
  · dsimp only
    rw [hq, hr, h.order]
    simp only [ReaderPc.request, List.append_assoc, List.append_nil]
  · dsimp only
    intro hnone
    have hnil : s.dev.reader.request = [] := by simpa using hnone
    rw [hq, hnil, List.append_nil]
    exact h.awake hs

theorem WorkInv.take {maxTransfer : UInt32} {s s' : WorkState} (h : WorkInv maxTransfer s)
    (he : workStep maxTransfer s .take = some s') : WorkInv maxTransfer s' := by
  simp only [workStep] at he
  split at he
  · rename_i hbh hq
    cases he
    refine ⟨?_, h.sized, fun _ hne => absurd hq hne, h.served⟩
    rw [h.order, hbh]
    rfl
  · rename_i w q hbh hq
    cases he
    refine ⟨?_, h.sized, fun _ _ => .inr (fun hi => (by cases hi)), h.served⟩
    rw [h.order, hbh, hq]
    simp [BhPc.item]
  · cases he

theorem WorkInv.process {maxTransfer : UInt32} {s s' : WorkState} (h : WorkInv maxTransfer s) {ok : Bool}
    {data : List UInt8} {now : UInt64} (he : workStep maxTransfer s (.process ok data now) = some s') :
    WorkInv maxTransfer s' := by
  simp only [workStep] at he
  split at he
  · rename_i w hbh
    cases he
    have horder := h.order
    rw [hbh] at horder
    have hw : w ∈ s.arrived := by
      rw [horder]
      simp [BhPc.item]
    refine ⟨?_, h.sized, fun _ _ => .inr (fun hi => (by cases hi)), ?_⟩
    · rw [horder]
      simp [BhPc.item]
    · intro x hx
      rcases List.mem_append.1 hx with hx | hx
      · exact h.served x hx
      · rw [List.mem_singleton.1 hx]
        exact workEffects_served maxTransfer (h.sized w hw).1 (h.sized w hw).2 ok data now
  · cases he

/-- **Every step keeps the invariant.** -/
theorem workStep_inv {maxTransfer : UInt32} {s s' : WorkState} {e : WorkEvent} (h : WorkInv maxTransfer s)
    (he : workStep maxTransfer s e = some s') : WorkInv maxTransfer s' := by
  cases e with
  | begin r now =>
    simp only [workStep] at he
    obtain ⟨dev, hdev, rfl⟩ := Option.map_eq_some_iff.1 he
    cases hdev
    exact h.device (begin_work s.dev r now)
  | rpc i e =>
    simp only [workStep] at he
    obtain ⟨dev, hdev, rfl⟩ := Option.map_eq_some_iff.1 he
    simp only [deviceStep] at hdev
    split at hdev
    · cases hdev
    · exact h.device (rpcStep_work hdev)
  | recv wire payload =>
    simp only [workStep] at he
    split at he
    · cases he
    · rename_i m hm
      exact h.recv (micsRecv_payload hm) he
  | file =>
    simp only [workStep] at he
    split at he
    · cases he
    · rename_i hs
      obtain ⟨dev, hdev, rfl⟩ := Option.map_eq_some_iff.1 he
      exact h.file (by simpa using hs) hdev
  | schedule =>
    simp only [workStep] at he
    split at he
    · cases he
      exact ⟨h.order, h.sized, fun _ _ => .inl rfl, h.served⟩
    · cases he
  | readerExit =>
    simp only [workStep] at he
    split at he
    · cases he
    · obtain ⟨dev, hdev, rfl⟩ := Option.map_eq_some_iff.1 he
      simp only [deviceStep] at hdev
      split at hdev
      · rename_i hr
        cases hdev
        refine ⟨?_, h.sized, h.awake, h.served⟩
        rw [h.order, hr]
        rfl
      · cases hdev
  | bhRun =>
    simp only [workStep] at he
    split at he
    · rename_i hrun
      cases he
      refine ⟨?_, h.sized, fun _ _ => .inr (fun hi => (by cases hi)), h.served⟩
      rw [h.order, hrun.2]
      rfl
    · cases he
  | take => exact h.take he
  | process ok data now => exact h.process he

/-- **The device model serves every request of the endpoint once, in order and within bounds**, in every run and under
every interleaving of the reader, the bottom half and the guest's accesses. -/
theorem endpoint_requests_served (maxTransfer : UInt32) (es : List WorkEvent) (s : WorkState)
    (h : run (workStep maxTransfer) WorkState.init es = some s) :
    s.arrived = s.handled.map Prod.fst ++ s.bh.item ++ s.dev.workQueue ++ s.dev.reader.request ∧
    (s.scheduling = false → s.dev.workQueue ≠ [] → s.scheduled = true ∨ s.bh ≠ .idle) ∧
    ∀ x ∈ s.handled, Served maxTransfer x.1 x.2 := by
  have hinv := Run.run_invariant (fun _ _ _ hi he => workStep_inv hi he) es _ s (workInv_init maxTransfer) h
  exact ⟨hinv.order, hinv.awake, hinv.served⟩

/-- A DMA write and an interrupt: the second is queued while the bottom half is at work on the first. -/
theorem endpoint_requests_served_two :
    let write : MicsHeader := ⟨9, 0, 2, 7, 0, 0x4000, 0, 0, 2⟩
    let msix : MicsHeader := ⟨11, 0, 0, 8, 0, 1, 0, 0, 0⟩
    let es : List WorkEvent :=
      [.recv (micsEncodeHeader write) [1, 2], .file, .schedule, .bhRun, .take, .recv (micsEncodeHeader msix) [], .file,
        .process true [] 0, .take, .schedule, .process true [] 0, .take, .bhRun, .take]
    ∃ s, run (workStep 4096) WorkState.init es = some s ∧ s.bh = .idle ∧ s.dev.workQueue = [] ∧
      s.handled = [(⟨write, [1, 2]⟩, [.dmaWrite 0x4000 [1, 2] 2 true, .send ⟨⟨10, 1, 0, 7, 0, 0x4000, 0, 0, 2⟩, []⟩]),
        (⟨msix, []⟩, [.msixNotify 1])] ∧
      ∀ x ∈ s.handled, Served 4096 x.1 x.2 := by
  intro write msix es
  have hrun : (run (workStep 4096) WorkState.init es).map (fun s => (s.bh, s.dev.workQueue, s.handled)) =
      some (.idle, [], [(⟨write, [1, 2]⟩,
        [.dmaWrite 0x4000 [1, 2] 2 true, .send ⟨⟨10, 1, 0, 7, 0, 0x4000, 0, 0, 2⟩, []⟩]),
        (⟨msix, []⟩, [.msixNotify 1])]) := by decide +kernel
  obtain ⟨s, hs, heq⟩ := Option.map_eq_some_iff.1 hrun
  have hbh : s.bh = .idle := congrArg Prod.fst heq
  have hqueue : s.dev.workQueue = [] := congrArg (fun p => p.2.1) heq
  exact ⟨s, hs, hbh, hqueue, congrArg (fun p => p.2.2) heq, (endpoint_requests_served 4096 es s hs).2.2⟩

end Qemu
end Vip
