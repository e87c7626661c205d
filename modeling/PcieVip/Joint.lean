import PcieVip.QemuRpc
import PcieVip.Server
/-!
# Joint — QEMU and a backend with one RTL thread, together

The device model and a server on one connection, message by message.  Of QEMU it is assumed that a BAR access or a reset
holds the big lock from beginning to end, that the bottom half needs the same lock, and that waiting on
`response_cond` does not release it.  Of the RTL side, that it polls a request, answers it and, when the request was a
doorbell, issues DMA requests before it polls again; this covers the main loop of the Verilator harness and
`SoftwareEndpointModel::Run`.

A doorbell write is answered before the DMA it triggers, so the guest may touch the BAR while that DMA is under way:
each side then waits for what the other will not do (`deadlock_reachable`).  It cannot happen when every access finds
the backend idle (`deadlock_free_of_quiet_access`).
-/
namespace Vip
namespace Joint

open Ics Qemu Run

/-! ## State -/

/-- Where the RTL thread stands, with the request it is working on. -/
inductive RtlPc where
  | idle
  | handling (m : Message)
  | serving (m : Message)
  | waiting (m : Message) (txnId : UInt64)
  deriving DecidableEq, Repr

def RtlPc.awaits : RtlPc → Option UInt64
  | .waiting _ txnId => some txnId
  | _                => none

structure World where
  dev         : Device := Device.init
  bql         : Bool := false
  maxTransfer : UInt32
  toServer    : List Message := []
  toQemu      : List Message := []
  inbound     : BlockingQueue Message := {}
  pending     : PendingRequestTable Message := {}
  txnGen      : TransactionIdGenerator := {}
  rtl         : RtlPc := .idle

/-! ## QEMU -/

/-- A guest access: the lock is held as long as the call is under way. -/
def World.begin (s : World) (r : RpcRequest) (now : UInt64) : Option World :=
  if s.bql then none
  else some { s with dev := s.dev.begin r now, bql := !(r == .reset && !s.dev.connected) }

def isReturned : RpcPc → Bool
  | .returned _ => true
  | _           => false

/-- What a step of a call puts on the wire: the request, when `mics_send` succeeds. -/
def emits (c : RpcCall) (e : RpcEvent) : List Message :=
  match c.pc, e with
  | .writing, .write tx =>
    if (micsSend true c.header c.request.payload tx).ok then [⟨c.header.toIcs, c.request.payload⟩] else []
  | _, _ => []

def World.rpc (s : World) (e : RpcEvent) : Option World :=
  match s.dev.calls.getLast? with
  | none   => none
  | some c =>
    match rpcStep s.dev (s.dev.calls.length - 1) c e with
    | none     => none
    | some dev =>
      some { s with dev, toServer := s.toServer ++ emits c e
                    bql := s.bql && !(dev.calls.getLast?.any (fun c => isReturned c.pc)) }

/-- `pcie_vip_process_work` for one item; `ok` is whether `pci_dma_read` or `pci_dma_write` returns MEMTX_OK. -/
def processWork (maxTransfer : UInt32) (w : MicsMessage) (ok : Bool) (data : List UInt8) (now : UInt64) :
    Option MicsMessage :=
  let len := w.h.transferLen
  let status (good : Bool) : UInt32 := if good then micsStatusSuccess else 6
  if w.h.type = MicsType.dmaReadReq.code then
    let good := len ≠ 0 ∧ len ≤ maxTransfer ∧ ok
    let payload := if good then (List.range len.toNat).map (fun i => data.getD i 0) else []
    some ⟨⟨MicsType.dmaReadRsp.code, micsFlagResponse, if good then len else 0, w.h.txnId, now, w.h.address, 0,
      status good, len⟩, payload⟩
  else if w.h.type = MicsType.dmaWriteReq.code then
    let good := len ≠ 0 ∧ len ≤ maxTransfer ∧ len = w.h.payloadLen ∧ ok
    some ⟨⟨MicsType.dmaWriteRsp.code, micsFlagResponse, 0, w.h.txnId, now, w.h.address, 0, status good, len⟩, []⟩
  else none

/-- The bottom half takes the lock for one item; `sent` is whether its answer could be sent. -/
def World.bottomHalf (s : World) (ok : Bool) (data : List UInt8) (now : UInt64) (sent : Bool) : Option World :=
  if s.bql then none
  else
    match s.dev.workQueue with
    | []     => none
    | w :: q =>
      let out := if sent then (processWork s.maxTransfer w ok data now).toList else []
      some { s with dev := { s.dev with workQueue := q }
                    toServer := s.toServer ++ out.map (fun m => ⟨m.h.toIcs, m.payload⟩) }

/-- The reader takes the next message off the connection, or files the one it holds. -/
def World.recv (s : World) : Option World :=
  match s.toQemu with
  | []     => none
  | m :: q => (deviceStep s.dev (.recv ⟨ofIcs m.header, m.payload⟩)).map (fun dev => { s with dev, toQemu := q })

def World.file (s : World) : Option World := (deviceStep s.dev .file).map (fun dev => { s with dev })

def World.readerExit (s : World) : Option World := (deviceStep s.dev .readerExit).map (fun dev => { s with dev })

/-! ## The backend -/

/-- The server's I/O thread: `DispatchIncoming`. -/
def World.dispatch (s : World) : Option World :=
  match s.toServer with
  | []     => none
  | m :: q =>
    if m.isDmaRsp then some { s with toServer := q, pending := (s.pending.complete m.header.txnId m).2 }
    else some { s with toServer := q, inbound := s.inbound.push m }

/-- The writes that start DMA: the SQ0 doorbell and the descriptor ring's tail. -/
def isDoorbell (m : Message) : Bool :=
  m.header.isType .mmioWriteReq && (m.header.address == 0x1000 || m.header.address == 0x1054)

def answerType (m : Message) : Option MessageType :=
  if m.header.isType .resetReq then some .resetRsp
  else if m.header.isType .mmioReadReq then some .mmioReadRsp
  else if m.header.isType .mmioWriteReq then some .mmioWriteRsp
  else none

def answer (m : Message) (type : MessageType) (status : StatusCode) (payload : List UInt8) (now : UInt64) : Message :=
  ⟨makeHeader type m.header.txnId (if type = .resetRsp then 0 else m.header.address) 0 status now
    (UInt32.ofNat payload.length) kFlagIsResponse, payload⟩

inductive RtlEvent where
  | poll
  | respond (status : StatusCode) (payload : List UInt8) (now : UInt64)
  /-- `SendRequestToHost` up to its wait; `sent` is whether the send succeeded. -/
  | dma (r : Request) (sent : Bool)
  | wait
  | done
  deriving DecidableEq, Repr

def World.rtlStep (s : World) (e : RtlEvent) : Option World :=
  match s.rtl, e with
  | .idle, .poll =>
    match s.inbound.pop with
    | (some m, inbound) => some { s with inbound, rtl := .handling m }
    | (none, _)         => some s
  | .handling m, .respond status payload now =>
    match answerType m with
    | none      => some { s with rtl := .idle }
    | some type => some { s with toQemu := s.toQemu ++ [answer m type status payload now], rtl := .serving m }
  | .serving m, .dma r sent =>
    if !isDoorbell m then none
    else
      let (txnId, txnGen) := s.txnGen.next
      if sent then
        some { s with txnGen, toQemu := s.toQemu ++ [r.message txnId]
                      pending := if r.expectResponse then s.pending.registerPending txnId else s.pending
                      rtl := if r.expectResponse then .waiting m txnId else .serving m }
      else some { s with txnGen }
  | .waiting m txnId, .wait => some { s with pending := (s.pending.waitFor txnId).2, rtl := .serving m }
  | .serving _, .done => some { s with rtl := .idle }
  | _, _ => none

inductive JointEvent where
  | begin (r : RpcRequest) (now : UInt64)
  | rpc (e : RpcEvent)
  | bottomHalf (ok : Bool) (data : List UInt8) (now : UInt64) (sent : Bool)
  | recv
  | file
  | readerExit
  | dispatch
  | rtl (e : RtlEvent)
  deriving DecidableEq, Repr

def jointStep (s : World) : JointEvent → Option World
  | .begin r now                  => s.begin r now
  | .rpc e                        => s.rpc e
  | .bottomHalf ok data now sent  => s.bottomHalf ok data now sent
  | .recv                         => s.recv
  | .file                         => s.file
  | .readerExit                   => s.readerExit
  | .dispatch                     => s.dispatch
  | .rtl e                        => s.rtlStep e

/-! ## The deadlock -/

/-- A guest access waits, with the big lock, for the answer to a request that nobody has polled. -/
def GuestBlocked (s : World) : Prop :=
  s.bql = true ∧ s.dev.pendingDone = false ∧ ∃ c ∈ s.dev.calls, c.pc = .waiting ∧ c.request ≠ .reset ∧
    ∃ m ∈ s.inbound.queue, m.header.txnId = c.header.txnId ∧ m.header.msgType = c.header.type

/-- The RTL thread waits for the answer to a DMA request that the bottom half has not processed. -/
def RtlBlocked (s : World) : Prop :=
  ∃ txnId ∈ s.rtl.awaits, s.pending.pending txnId = some none ∧ ∃ w ∈ s.dev.workQueue, w.h.txnId = txnId ∧
    (w.h.type = MicsType.dmaReadReq.code ∨ w.h.type = MicsType.dmaWriteReq.code)

def Deadlock (s : World) : Prop := GuestBlocked s ∧ RtlBlocked s

instance (s : World) : Decidable (Deadlock s) :=
  inferInstanceAs (Decidable ((_ ∧ _ ∧ ∃ c ∈ s.dev.calls, _ ∧ _ ∧ ∃ m ∈ s.inbound.queue, _ ∧ _) ∧
    ∃ txnId ∈ s.rtl.awaits, _ ∧ ∃ w ∈ s.dev.workQueue, _ ∧ _))

/-- The backend is idle and no request is on its way to it. -/
def BackendIdle (s : World) : Prop :=
  s.toServer.filter (fun m => !m.isDmaRsp) = [] ∧ s.inbound.queue = [] ∧ s.rtl = .idle

instance (s : World) : Decidable (BackendIdle s) := inferInstanceAs (Decidable (_ ∧ _ ∧ _))

def QuietAccess (s : World) : JointEvent → Prop
  | .begin _ _ => BackendIdle s
  | _          => True

instance (s : World) : (e : JointEvent) → Decidable (QuietAccess s e)
  | .begin _ _          => inferInstanceAs (Decidable (BackendIdle s))
  | .rpc _              => isTrue trivial
  | .bottomHalf _ _ _ _ => isTrue trivial
  | .recv               => isTrue trivial
  | .file               => isTrue trivial
  | .readerExit         => isTrue trivial
  | .dispatch           => isTrue trivial
  | .rtl _              => isTrue trivial

/-! ## One request at a time -/

/-- The requests that are on their way to the backend, queued there, or being worked on. -/
def load (s : World) : Nat :=
  (s.toServer.filter (fun m => !m.isDmaRsp)).length + s.inbound.queue.length + (if s.rtl = .idle then 0 else 1)

def isUnsent : RpcPc → Bool
  | .start    => true
  | .checking => true
  | .writing  => true
  | _         => false

def unsent (s : World) : Nat := if s.dev.calls.getLast?.any (fun c => isUnsent c.pc) then 1 else 0

theorem rpcStep_calls {dev dev' : Device} {i : Nat} {c : RpcCall} {e : RpcEvent} (h : rpcStep dev i c e = some dev') :
    ∃ pc, dev'.calls = dev.calls.set i { c with pc } ∧ (isUnsent pc = true → isUnsent c.pc = true ∧ emits c e = []) ∧
      (emits c e ≠ [] → isUnsent c.pc = true) := by
  unfold rpcStep at h
  split at h
  · rename_i hpc
    have he : emits c .lock = [] := by simp only [emits, hpc]
    split at h
    · cases h; exact ⟨_, rfl, fun hu => (by cases hu), fun hne => absurd he hne⟩
    · cases h; exact ⟨_, rfl, fun _ => ⟨by rw [hpc]; rfl, he⟩, fun hne => absurd he hne⟩
  · rename_i hpc
    have he : emits c .check = [] := by simp only [emits, hpc]
    cases h
    exact ⟨_, rfl, fun _ => ⟨by rw [hpc]; rfl, he⟩, fun hne => absurd he hne⟩
  · rename_i tx hpc
    cases h
    refine ⟨_, rfl, fun hu => ?_, fun _ => by rw [hpc]; rfl⟩
    split at hu <;> cases hu
  · rename_i t hpc
    have he : emits c (.finish t) = [] := by simp only [emits, hpc]
    split at h
    · cases h
    · cases h
      unfold Device.conclude
      split
      · exact ⟨_, rfl, fun hu => (by cases hu), fun hne => absurd he hne⟩
      · exact ⟨_, rfl, fun hu => (by cases hu), fun hne => absurd he hne⟩
  · rename_i hpc
    have he : emits c .fail = [] := by simp only [emits, hpc]
    cases h
    exact ⟨_, rfl, fun hu => (by cases hu), fun hne => absurd he hne⟩
  · cases h

theorem getLast?_set_last {calls : List RpcCall} {c : RpcCall} (hc : calls.getLast? = some c) (c' : RpcCall) :
    (calls.set (calls.length - 1) c').getLast? = some c' := by
  obtain ⟨front, rfl⟩ := List.getLast?_eq_some_iff.1 hc
  simp

theorem file_calls (dev : Device) (m : MicsMessage) : (dev.file m).calls = dev.calls := by
  unfold Device.file
  split
  · split <;> rfl
  · split <;> rfl

theorem rpc_load {s s' : World} {e : RpcEvent} (hi : load s + unsent s ≤ 1) (h : s.rpc e = some s') :
    load s' + unsent s' ≤ 1 := by
  unfold World.rpc at h
  split at h
  · cases h
  · rename_i c hc
    split at h
    · cases h
    · rename_i dev hdev
      cases h
      obtain ⟨pc, hcalls, hun, hem⟩ := rpcStep_calls hdev
      have hlast : dev.calls.getLast? = some { c with pc } := by rw [hcalls]; exact getLast?_set_last hc _
      have hu : unsent s = if isUnsent c.pc then 1 else 0 := by simp [unsent, hc]
      simp only [load, unsent, hlast, Option.any_some, List.filter_append, List.length_append] at hi hu ⊢
      rw [hu] at hi
      by_cases hp : isUnsent pc = true
      · obtain ⟨hcu, hemit⟩ := hun hp
        rw [hemit]
        simp only [hp, hcu, if_true, List.filter_nil, List.length_nil, Nat.add_zero] at hi ⊢
        exact hi
      · by_cases hemit : emits c e = []
        · rw [hemit]
          simp only [hp, Bool.false_eq_true, if_false, List.filter_nil, List.length_nil, Nat.add_zero] at hi ⊢
          omega
        · have hone : ((emits c e).filter (fun m => !m.isDmaRsp)).length ≤ 1 := by
            refine Nat.le_trans (List.length_filter_le _ _) ?_
            unfold emits
            split
            · split <;> simp
            · simp
          simp only [hp, hem hemit, if_true, Bool.false_eq_true, if_false] at hi ⊢
          omega

theorem processWork_some {maxTransfer : UInt32} {w m : MicsMessage} {ok : Bool} {data : List UInt8} {now : UInt64}
    (h : processWork maxTransfer w ok data now = some m) :
    (⟨m.h.toIcs, m.payload⟩ : Message).isDmaRsp = true ∧ m.h.txnId = w.h.txnId := by
  unfold processWork at h
  dsimp only at h
  split at h
  · cases h; exact ⟨rfl, rfl⟩
  · split at h
    · cases h; exact ⟨rfl, rfl⟩
    · cases h

theorem bottomHalf_load {s s' : World} {ok : Bool} {data : List UInt8} {now : UInt64} {sent : Bool}
    (hi : load s + unsent s ≤ 1) (h : s.bottomHalf ok data now sent = some s') : load s' + unsent s' ≤ 1 := by
  unfold World.bottomHalf at h
  split at h
  · cases h
  · split at h
    · cases h
    · rename_i w q _
      cases h
      have hnone : ((if sent = true then (processWork s.maxTransfer w ok data now).toList else []).map
          (fun m => (⟨m.h.toIcs, m.payload⟩ : Message))).filter (fun m => !m.isDmaRsp) = [] := by
        rw [List.filter_eq_nil_iff]
        intro x hx
        obtain ⟨m, hm, rfl⟩ := List.mem_map.1 hx
        split at hm
        · simp [(processWork_some (Option.mem_toList.1 hm)).1]
        · cases hm
      simp only [load, unsent, List.filter_append, hnone, List.append_nil] at hi ⊢
      exact hi

theorem dispatch_load {s s' : World} (hi : load s + unsent s ≤ 1) (h : s.dispatch = some s') :
    load s' + unsent s' ≤ 1 := by
  unfold World.dispatch at h
  split at h
  · cases h
  · rename_i m q hq
    split at h
    · rename_i hm
      cases h
      simp only [load, unsent, hq] at hi ⊢
      rw [List.filter_cons_of_neg (by simp [hm])] at hi
      exact hi
    · rename_i hm
      cases h
      simp only [load, unsent, hq, BlockingQueue.push_queue, List.length_append, List.length_singleton] at hi ⊢
      rw [List.filter_cons_of_pos (by simp [hm]), List.length_cons] at hi
      omega

theorem rtlStep_load {s s' : World} {e : RtlEvent} (hi : load s + unsent s ≤ 1) (h : s.rtlStep e = some s') :
    load s' + unsent s' ≤ 1 := by
  unfold World.rtlStep at h
  split at h
  · rename_i hpc
    split at h
    · rename_i m inbound hpop
      cases h
      have hq := s.inbound.pop_queue
      rw [hpop] at hq
      have hlen : s.inbound.queue.length = inbound.queue.length + 1 := by rw [← hq]; rfl
      simp only [load, unsent, hpc, hlen, if_true, reduceCtorEq, if_false] at hi ⊢
      omega
    · cases h; exact hi
  · rename_i hpc
    split at h
    · cases h
      simp only [load, unsent, hpc, reduceCtorEq, if_true, if_false] at hi ⊢
      omega
    · cases h
      simp only [load, unsent, hpc, reduceCtorEq, if_false] at hi ⊢
      exact hi
  · rename_i m r sent hpc
    split at h
    · cases h
    · dsimp only at h
      split at h
      · cases h
        have hrtl : (if r.expectResponse = true then RtlPc.waiting m s.txnGen.next.1 else RtlPc.serving m) ≠ .idle := by
          split <;> simp
        simp only [load, unsent, hpc, reduceCtorEq, if_neg hrtl, if_false] at hi ⊢
        exact hi
      · cases h
        simp only [load, unsent] at hi ⊢
        exact hi
  · rename_i hpc
    cases h
    simp only [load, unsent, hpc, reduceCtorEq, if_false] at hi ⊢
    exact hi
  · rename_i hpc
    cases h
    simp only [load, unsent, hpc, reduceCtorEq, if_true, if_false] at hi ⊢
    omega
  · cases h

theorem jointStep_load {s s' : World} {e : JointEvent} (hi : load s + unsent s ≤ 1) (hg : QuietAccess s e)
    (h : jointStep s e = some s') : load s' + unsent s' ≤ 1 := by
  cases e with
  | begin r now =>
    obtain ⟨hs, hq, hr⟩ := hg
    simp only [jointStep, World.begin] at h
    split at h
    · cases h
    · cases h
      have hle : ∀ t : World, unsent t ≤ 1 := by intro t; unfold unsent; split <;> omega
      have hzero : ∀ dev bql, load { s with dev, bql } = 0 := by intro dev bql; simp [load, hs, hq, hr]
      rw [hzero]
      exact Nat.le_trans (Nat.le_of_eq (Nat.zero_add _)) (hle _)
  | rpc e => exact rpc_load hi h
  | bottomHalf ok data now sent => exact bottomHalf_load hi h
  | recv =>
    simp only [jointStep, World.recv] at h
    split at h
    · cases h
    · obtain ⟨dev, hdev, rfl⟩ := Option.map_eq_some_iff.1 h
      simp only [deviceStep] at hdev
      split at hdev
      · cases hdev; exact hi
      · cases hdev
  | file =>
    obtain ⟨dev, hdev, rfl⟩ := Option.map_eq_some_iff.1 h
    simp only [deviceStep] at hdev
    split at hdev
    · rename_i m _
      cases hdev
      simp only [load, unsent, file_calls] at hi ⊢
      exact hi
    · cases hdev
  | readerExit =>
    obtain ⟨dev, hdev, rfl⟩ := Option.map_eq_some_iff.1 h
    simp only [deviceStep] at hdev
    split at hdev
    · cases hdev; exact hi
    · cases hdev
  | dispatch => exact dispatch_load hi h
  | rtl e => exact rtlStep_load hi h

theorem two_le_load_of_deadlock {s : World} (h : Deadlock s) : 2 ≤ load s := by
  obtain ⟨⟨-, -, c, -, -, -, m, hm, -⟩, hr⟩ := h
  have hq : 1 ≤ s.inbound.queue.length := List.length_pos_of_mem hm
  have hrtl : s.rtl ≠ .idle := by
    intro hidle
    obtain ⟨txnId, ht, -⟩ := hr
    rw [hidle] at ht
    cases ht
  simp only [load, if_neg hrtl]
  omega

/-- **There is no deadlock in any run in which every guest access finds the backend idle.** -/
theorem deadlock_free_of_quiet_access (maxTransfer : UInt32) (es : List JointEvent) (s : World)
    (hg : Along jointStep QuietAccess { maxTransfer } es) (h : run jointStep { maxTransfer } es = some s) :
    ¬ Deadlock s := by
  intro hd
  have hi := run_invariant_along (I := fun s => load s + unsent s ≤ 1)
    (fun _ _ _ hi hg he => jointStep_load hi hg he) es { maxTransfer } s (by simp [load, unsent, Device.init]) hg h
  have := two_le_load_of_deadlock hd
  omega

/-- A doorbell write, the whole of the DMA it triggers, and then a read. -/
theorem deadlock_free_of_quiet_access_doorbell :
    let ready : List PollRet := [.revents false false false true]
    let access : RpcRequest → List JointEvent := fun r =>
      [.begin r 0, .rpc .lock, .rpc .check, .rpc (.write [⟨ready, [.wrote 64]⟩, ⟨ready, [.wrote 4]⟩]), .dispatch,
        .rtl .poll, .rtl (.respond .success [] 0), .recv, .file, .rpc (.finish false)]
    let dma : List JointEvent :=
      [.rtl (.dma ⟨.dmaReadReq, 0x2000, 0, [], 64, 0, true⟩ true), .recv, .file, .bottomHalf true [] 0 true, .dispatch,
        .rtl .wait, .rtl .done]
    let es : List JointEvent := access (.write 0x1000 1 4) ++ dma ++ access (.read 0x1c 4)
    Along jointStep QuietAccess { maxTransfer := 0x100000 } es ∧
      ∃ s, run jointStep { maxTransfer := 0x100000 } es = some s ∧ s.dev.calls.length = 2 ∧ ¬ Deadlock s := by
  intro ready access dma es
  have hg : Along jointStep QuietAccess { maxTransfer := 0x100000 } es := by decide +kernel
  have hrun : (run jointStep { maxTransfer := 0x100000 } es).map (fun s => s.dev.calls.length) = some 2 := by
    decide +kernel
  obtain ⟨s, hs, hlen⟩ := Option.map_eq_some_iff.1 hrun
  exact ⟨hg, s, hs, hlen, deadlock_free_of_quiet_access _ es s hg hs⟩

/-- The doorbell write is answered; while the RTL thread waits for its DMA read, the guest reads a register. -/
theorem deadlock_reachable :
    ¬ ∀ (maxTransfer : UInt32) (es : List JointEvent) (s : World), run jointStep { maxTransfer } es = some s →
      ¬ Deadlock s := by
  intro hall
  let ready : List PollRet := [.revents false false false true]
  let es : List JointEvent :=
    [.begin (.write 0x1000 1 4) 0, .rpc .lock, .rpc .check, .rpc (.write [⟨ready, [.wrote 64]⟩, ⟨ready, [.wrote 4]⟩]),
      .dispatch, .rtl .poll, .rtl (.respond .success [] 0), .recv, .file, .rpc (.finish false),
      .rtl (.dma ⟨.dmaReadReq, 0x2000, 0, [], 64, 0, true⟩ true), .recv, .file,
      .begin (.read 0x1c 4) 0, .rpc .lock, .rpc .check, .rpc (.write [⟨ready, [.wrote 64]⟩]), .dispatch]
  have hrun : (run jointStep { maxTransfer := 0x100000 } es).map (fun s => decide (Deadlock s)) = some true := by
    decide +kernel
  obtain ⟨s, hs, hd⟩ := Option.map_eq_some_iff.1 hrun
  exact hall _ es s hs (of_decide_eq_true hd)

end Joint
end Vip
