import PcieVip.PendingTable
import PcieVip.QemuWork
/-!
# TxnSpaces — two spaces of transaction identifiers on one connection

The device model with its reader and its bottom half (`QemuWork`), and a server with any number of calls of
`SendRequestToHost` (`PendingTable`), joined by one connection, message by message.  Both sides count from one, so that
requests with the same identifier are under way in both directions all the time.  Of the RTL side it is assumed that
what it sends as a response answers a request it has polled: it carries the response flag and that request's
identifier.

The server tells the two spaces apart by the type of a message, the device model by its flag.  The invariant `LineInv`
says of every message in flight, queued or filed where it comes from.
-/
namespace Vip
namespace Joint

open Ics Qemu Run

/-! ## The two sides and the connection -/

def micsOf (m : Message) : MicsMessage := ⟨ofIcs m.header, m.payload⟩

def icsOf (m : MicsMessage) : Message := ⟨m.h.toIcs, m.payload⟩

def requestOf (c : RpcCall) : Message := ⟨c.header.toIcs, c.request.payload⟩

/-- A response to the request `q`. -/
def AnswerTo (q a : Message) : Prop := a.header.flags &&& kFlagIsResponse ≠ 0 ∧ a.header.txnId = q.header.txnId

instance (q a : Message) : Decidable (AnswerTo q a) := inferInstanceAs (Decidable (_ ∧ _))

structure Line where
  qemu     : WorkState := WorkState.init
  toServer : List Message := []
  toQemu   : List Message := []
  inbound  : BlockingQueue Message := {}
  table    : TableState Message := TableState.init
  /-- The arguments of the calls of `SendRequestToHost`, by their number. -/
  requests : List Request := []
  -- history
  polled   : List Message := []
  answers  : List (Message × Message) := []
  replies  : List (MicsMessage × MicsMessage) := []

def Line.init : Line := {}

inductive LineEvent where
  | begin (r : RpcRequest) (now : UInt64)
  | rpc (i : Nat) (e : RpcEvent)
  | recv
  | file
  | schedule
  | readerExit
  | bhRun
  | take
  | process (ok : Bool) (data : List UInt8) (now : UInt64) (sent : Bool)
  | dispatch
  | poll
  /-- The answer `a` to the polled request number `k`. -/
  | respond (k : Nat) (a : Message) (sent : Bool)
  | call (r : Request)
  | send (i : Nat) (e : SendEvent)
  /-- `CancelAll`, from `Stop`. -/
  | cancelAll
  deriving DecidableEq, Repr

/-- What a step of a call of `SendRequestToHost` puts on the connection. -/
def demands (c : SendCall Message) (r : Request) (e : SendEvent) : List Message :=
  match c.pc, e with
  | .sending t, .sent true => [r.message t]
  | _, _                   => []

def repliesOf (maxTransfer : UInt32) (w : MicsMessage) (ok : Bool) (data : List UInt8) (now : UInt64) :
    List MicsMessage :=
  (workEffects maxTransfer w ok data now).filterMap Effect.sent?

def lineStep (maxTransfer : UInt32) (s : Line) (e : LineEvent) : Option Line :=
  let work (e : WorkEvent) : Option Line := (workStep maxTransfer s.qemu e).map (fun qemu => { s with qemu })
  match e with
  | .begin r now   => work (.begin r now)
  | .rpc i e       =>
    match s.qemu.dev.calls[i]? with
    | none   => none
    | some c => (work (.rpc i e)).map (fun s => { s with toServer := s.toServer ++ emits c e })
  | .recv          =>
    match s.toQemu with
    | []        => none
    | m :: rest => (s.qemu.recv (micsOf m)).map (fun qemu => { s with qemu, toQemu := rest })
  | .file          => work .file
  | .schedule      => work .schedule
  | .readerExit    => work .readerExit
  | .bhRun         => work .bhRun
  | .take          => work .take
  | .process ok data now sent =>
    match s.qemu.bh with
    | .working w =>
      let out := repliesOf maxTransfer w ok data now
      (work (.process ok data now)).map (fun s =>
        { s with toServer := s.toServer ++ (if sent then out.map icsOf else [])
                 replies := s.replies ++ out.map (fun r => (w, r)) })
    | _          => none
  | .dispatch      =>
    match s.toServer with
    | []        => none
    | m :: rest =>
      if m.isDmaRsp then some { s with toServer := rest, table := s.table.complete m.header.txnId m }
      else some { s with toServer := rest, inbound := s.inbound.push m }
  | .poll          =>
    match s.inbound.pop with
    | (none, _)         => some s
    | (some m, inbound) => some { s with inbound, polled := s.polled ++ [m] }
  | .respond k a sent =>
    match s.polled[k]? with
    | none   => none
    | some q =>
      if AnswerTo q a then
        some { s with toQemu := s.toQemu ++ (if sent then [a] else []), answers := s.answers ++ [(q, a)] }
      else none
  | .call r        =>
    (tableStep s.table (.call r.expectResponse)).map (fun table => { s with table, requests := s.requests ++ [r] })
  | .send i e      =>
    match s.table.calls[i]?, s.requests[i]? with
    | some c, some r =>
      (tableStep s.table (.send i e)).map (fun table => { s with table, toQemu := s.toQemu ++ demands c r e })
    | _, _           => none
  | .cancelAll     => (tableStep s.table .cancelAll).map (fun table => { s with table })

/-! ## Where a message comes from -/

def Line.Asked (s : Line) (m : Message) : Prop :=
  ∃ (i : Nat) (c : RpcCall), s.qemu.dev.calls[i]? = some c ∧ m = requestOf c

def Line.Demanded (s : Line) (m : Message) : Prop :=
  ∃ (i : Nat) (c : SendCall Message) (r : Request) (t : UInt64), s.table.calls[i]? = some c ∧ s.requests[i]? = some r ∧
    c.pc.id? = some t ∧ m = r.message t

def Line.Answered (s : Line) (m : Message) : Prop := ∃ q, (q, m) ∈ s.answers

def Line.Replied (s : Line) (m : Message) : Prop := ∃ w r, (w, r) ∈ s.replies ∧ m = icsOf r

/-- The state `s'` knows of everything that `s` does, and a message that is new in it has its provenance. -/
structure Line.Moves (s s' : Line) : Prop where
  asked     : ∀ m, s.Asked m → s'.Asked m := by exact fun _ h => h
  demanded  : ∀ m, s.Demanded m → s'.Demanded m := by exact fun _ h => h
  answered  : ∀ m, s.Answered m → s'.Answered m := by exact fun _ h => h
  replied   : ∀ m, s.Replied m → s'.Replied m := by exact fun _ h => h
  toServer  : ∀ m ∈ s'.toServer, m ∈ s.toServer ∨ (m.isDmaRsp = false ∧ s'.Asked m) ∨ s'.Replied m := by
    exact fun _ h => .inl h
  inbound   : ∀ m ∈ s'.inbound.queue, m ∈ s.inbound.queue ∨ s'.Asked m := by exact fun _ h => .inl h
  polled    : ∀ m ∈ s'.polled, m ∈ s.polled ∨ s'.Asked m := by exact fun _ h => .inl h
  toQemu    : ∀ m ∈ s'.toQemu, m ∈ s.toQemu ∨ s'.Answered m ∨ s'.Demanded m := by exact fun _ h => .inl h
  reader    : ∀ w, s'.qemu.dev.reader = .holding w → s.qemu.dev.reader = .holding w ∨
    ∃ m, w = micsOf m ∧ (s'.Answered m ∨ s'.Demanded m) := by exact fun _ h => .inl h
  queue     : ∀ w ∈ s'.qemu.bh.item ++ s'.qemu.dev.workQueue, w ∈ s.qemu.bh.item ++ s.qemu.dev.workQueue ∨
    ∃ m, w = micsOf m ∧ s'.Demanded m := by exact fun _ h => .inl h
  answers   : ∀ x ∈ s'.answers, x ∈ s.answers ∨ s'.Asked x.1 ∧ AnswerTo x.1 x.2 := by exact fun _ h => .inl h
  replies   : ∀ x ∈ s'.replies, x ∈ s.replies ∨ (∃ m, x.1 = micsOf m ∧ s'.Demanded m) ∧
    x.2.h.txnId = x.1.h.txnId ∧ (icsOf x.2).isDmaRsp = true := by exact fun _ h => .inl h
  filed     : ∀ d ∈ s'.qemu.dev.deliveries, d ∈ s.qemu.dev.deliveries ∨ ∃ m, d.message = micsOf m ∧ s'.Answered m := by
    exact fun _ h => .inl h
  completed : ∀ t m ok, .completed t m ok ∈ s'.table.log → .completed t m ok ∈ s.table.log ∨
    t = m.header.txnId ∧ s'.Replied m := by exact fun _ _ _ h => .inl h

/-- The provenance of every message there is. -/
structure LineInv (s : Line) : Prop where
  toServer  : ∀ m ∈ s.toServer, (m.isDmaRsp = false ∧ s.Asked m) ∨ s.Replied m
  inbound   : ∀ m ∈ s.inbound.queue, s.Asked m
  polled    : ∀ m ∈ s.polled, s.Asked m
  toQemu    : ∀ m ∈ s.toQemu, s.Answered m ∨ s.Demanded m
  reader    : ∀ w, s.qemu.dev.reader = .holding w → ∃ m, w = micsOf m ∧ (s.Answered m ∨ s.Demanded m)
  queue     : ∀ w ∈ s.qemu.bh.item ++ s.qemu.dev.workQueue, ∃ m, w = micsOf m ∧ s.Demanded m
  answers   : ∀ x ∈ s.answers, s.Asked x.1 ∧ AnswerTo x.1 x.2
  replies   : ∀ x ∈ s.replies, (∃ m, x.1 = micsOf m ∧ s.Demanded m) ∧ x.2.h.txnId = x.1.h.txnId ∧
    (icsOf x.2).isDmaRsp = true
  filed     : ∀ d ∈ s.qemu.dev.deliveries, ∃ m, d.message = micsOf m ∧ s.Answered m
  completed : ∀ t m ok, .completed t m ok ∈ s.table.log → t = m.header.txnId ∧ s.Replied m

theorem lineInv_init : LineInv Line.init where
  toServer := fun _ h => by cases h
  inbound := fun _ h => by cases h
  polled := fun _ h => by cases h
  toQemu := fun _ h => by cases h
  reader := fun _ h => by cases h
  queue := fun _ h => by cases h
  answers := fun _ h => by cases h
  replies := fun _ h => by cases h
  filed := fun _ h => by cases h
  completed := fun _ _ _ h => by cases h

theorem Line.Moves.refl (s : Line) : s.Moves s := {}

theorem LineInv.move {s s' : Line} (h : LineInv s) (hm : s.Moves s') : LineInv s' where
  toServer := fun m hm' => (hm.toServer m hm').elim
    (fun hs => (h.toServer m hs).imp (fun ha => ⟨ha.1, hm.asked m ha.2⟩) (hm.replied m)) id
  inbound := fun m hm' => (hm.inbound m hm').elim (fun hs => hm.asked m (h.inbound m hs)) id
  polled := fun m hm' => (hm.polled m hm').elim (fun hs => hm.asked m (h.polled m hs)) id
  toQemu := fun m hm' => (hm.toQemu m hm').elim (fun hs => (h.toQemu m hs).imp (hm.answered m) (hm.demanded m)) id
  reader := by
    intro w hw
    rcases hm.reader w hw with hs | hs
    · obtain ⟨m, hwm, hp⟩ := h.reader w hs
      exact ⟨m, hwm, hp.imp (hm.answered m) (hm.demanded m)⟩
    · exact hs
  queue := by
    intro w hw
    rcases hm.queue w hw with hs | hs
    · obtain ⟨m, hwm, hd⟩ := h.queue w hs
      exact ⟨m, hwm, hm.demanded m hd⟩
    · exact hs
  answers := fun x hx => (hm.answers x hx).elim (fun hs => ⟨hm.asked _ (h.answers x hs).1, (h.answers x hs).2⟩) id
  replies := by
    intro x hx
    rcases hm.replies x hx with hs | hs
    · obtain ⟨⟨m, hxm, hd⟩, hrest⟩ := h.replies x hs
      exact ⟨⟨m, hxm, hm.demanded m hd⟩, hrest⟩
    · exact hs
  filed := by
    intro d hd
    rcases hm.filed d hd with hs | hs
    · obtain ⟨m, hdm, ha⟩ := h.filed d hs
      exact ⟨m, hdm, hm.answered m ha⟩
    · exact hs
  completed := fun t m ok ht => (hm.completed t m ok ht).elim
    (fun hs => ⟨(h.completed t m ok hs).1, hm.replied m (h.completed t m ok hs).2⟩) id

/-! ## Flags and types tell the spaces apart -/

theorem demanded_not_response {s : Line} {m : Message} (h : s.Demanded m) : (micsOf m).isResponse = false := by
  obtain ⟨i, c, r, t, -, -, -, rfl⟩ := h
  change (kFlagNone &&& micsFlagResponse != 0) = false
  decide

theorem LineInv.answered_response {s : Line} (h : LineInv s) {m : Message} (hm : s.Answered m) :
    (micsOf m).isResponse = true := by
  obtain ⟨q, hq⟩ := hm
  exact bne_iff_ne.2 (h.answers _ hq).2.1

theorem LineInv.replied_isDmaRsp {s : Line} (h : LineInv s) {m : Message} (hm : s.Replied m) : m.isDmaRsp = true := by
  obtain ⟨w, r, hr, rfl⟩ := hm
  exact (h.replies _ hr).2.2

/-! ## Each side for itself -/

def drawnIds : Nat → List UInt64
  | 0     => []
  | n + 1 => UInt64.ofNat (1 + n) :: drawnIds n

theorem mem_drawnIds : ∀ {n : Nat} {t : UInt64}, t ∈ drawnIds n → ∃ k, k < n ∧ t = UInt64.ofNat (1 + k)
  | 0, _, h     => by cases h
  | n + 1, t, h => by
    rcases List.mem_cons.1 h with h | h
    · exact ⟨n, Nat.lt_succ_self n, h⟩
    · obtain ⟨k, hk, ht⟩ := mem_drawnIds h
      exact ⟨k, Nat.lt_succ_of_lt hk, ht⟩

theorem drawnIds_nodup : ∀ {n : Nat}, n < 2 ^ 64 → (drawnIds n).Nodup
  | 0, _     => List.nodup_nil
  | n + 1, h => by
    refine List.nodup_cons.2 ⟨fun hmem => ?_, drawnIds_nodup (Nat.lt_of_succ_lt h)⟩
    obtain ⟨k, hk, heq⟩ := mem_drawnIds hmem
    have hnat := congrArg UInt64.toNat heq
    simp only [UInt64.toNat_ofNat'] at hnat
    omega

structure Sides (s : Line) : Prop where
  device  : Correlated s.qemu.dev
  headers : ∀ c ∈ s.qemu.dev.calls, ∃ txnId now, c.header = c.request.header txnId now
  table   : TableInv s.table
  named   : ∀ c ∈ s.table.calls, ∀ m, c.pc ≠ .returned none (some m)
  lengths : s.requests.length = s.table.calls.length
  ids     : s.table.ids = drawnIds s.table.ids.length
  nextId  : s.table.txnGen.nextId = UInt64.ofNat (1 + s.table.ids.length)
  calls   : s.table.ids.Nodup → CallInv s.table

theorem sides_init : Sides Line.init :=
  ⟨correlated_init, fun _ h => (by cases h), tableInv_init, fun _ h => (by cases h), rfl, rfl, rfl,
    fun _ => callInv_init⟩

theorem deviceStep_calls {d d' : Device} {e : DeviceEvent} (h : deviceStep d e = some d') {i : Nat} {c : RpcCall}
    (hc : d.calls[i]? = some c) : ∃ c', d'.calls[i]? = some c' ∧ c'.header = c.header ∧ c'.request = c.request := by
  unfold deviceStep at h
  split at h
  · cases h
    unfold Device.begin
    split
    · exact ⟨c, hc, rfl, rfl⟩
    · exact ⟨c, by rw [List.getElem?_append_left (List.getElem?_eq_some_iff.1 hc).1]; exact hc, rfl, rfl⟩
  · rename_i j e
    split at h
    · cases h
    · rename_i b hb
      obtain ⟨pc, hcalls, -⟩ := rpcStep_calls h
      rw [hcalls]
      by_cases hj : i = j
      · subst hj
        rw [hb] at hc
        cases hc
        exact ⟨_, (set_getElem? hb i _).2 (.inl ⟨rfl, rfl⟩), rfl, rfl⟩
      · exact ⟨c, (set_getElem? hb i c).2 (.inr ⟨hj, hc⟩), rfl, rfl⟩
  · split at h
    · cases h; exact ⟨c, hc, rfl, rfl⟩
    · cases h
  · split at h
    · rename_i m _
      cases h
      exact ⟨c, by dsimp only; rw [file_calls]; exact hc, rfl, rfl⟩
    · cases h
  · split at h
    · cases h; exact ⟨c, hc, rfl, rfl⟩
    · cases h

theorem deviceStep_headers {d d' : Device} {e : DeviceEvent} (h : deviceStep d e = some d')
    (hd : ∀ c ∈ d.calls, ∃ txnId now, c.header = c.request.header txnId now) :
    ∀ c ∈ d'.calls, ∃ txnId now, c.header = c.request.header txnId now := by
  unfold deviceStep at h
  split at h
  · rename_i r now
    cases h
    unfold Device.begin
    split
    · exact hd
    · intro c hc
      rcases List.mem_append.1 hc with hc | hc
      · exact hd c hc
      · rw [List.mem_singleton.1 hc]
        exact ⟨_, now, rfl⟩
  · split at h
    · cases h
    · rename_i b hb
      obtain ⟨pc, hcalls, -⟩ := rpcStep_calls h
      intro c hc
      rw [hcalls] at hc
      rcases List.mem_or_eq_of_mem_set hc with hc | rfl
      · exact hd c hc
      · exact hd b (List.mem_of_getElem? hb)
  · split at h
    · cases h; exact hd
    · cases h
  · split at h
    · rename_i m _
      cases h
      dsimp only
      rw [file_calls]
      exact hd
    · cases h
  · split at h
    · cases h; exact hd
    · cases h

/-- A call of `SendRequestToHost` keeps its identifier; only `DispatchIncoming` completes; and the identifiers come
from the generator. -/
theorem sendRequestStep_frame {α : Type} {s s' : TableState α} {i : Nat} {c : SendCall α} {e : SendEvent}
    (h : sendRequestStep s i c e = some s') :
    (∃ pc, s'.calls = s.calls.set i { c with pc } ∧ (∀ t, c.pc.id? = some t → pc.id? = some t) ∧
        ∀ m, pc ≠ .returned none (some m)) ∧
      (∀ t m ok, .completed t m ok ∈ s'.log → .completed t m ok ∈ s.log) ∧
      (s'.ids = s.ids ∧ s'.txnGen = s.txnGen ∨ s'.ids = s.txnGen.nextId :: s.ids ∧ s'.txnGen = s.txnGen.next.2) := by
  unfold sendRequestStep at h
  split at h
  · rename_i hpc
    cases h
    exact ⟨⟨_, rfl, fun t ht => (by rw [hpc] at ht; cases ht), nofun⟩, fun _ _ _ hl => hl, .inl ⟨rfl, rfl⟩⟩
  · rename_i hpc
    cases h
    exact ⟨⟨_, rfl, fun t ht => (by rw [hpc] at ht; cases ht), nofun⟩, fun _ _ _ hl => hl, .inr ⟨rfl, rfl⟩⟩
  · rename_i t hpc
    cases h
    split
    · exact ⟨⟨_, rfl, fun u hu => (by rw [hpc] at hu; exact hu), nofun⟩,
        fun _ _ _ hl => (List.mem_cons.1 hl).resolve_left nofun, .inl ⟨rfl, rfl⟩⟩
    · exact ⟨⟨_, rfl, fun u hu => (by rw [hpc] at hu; exact hu), nofun⟩, fun _ _ _ hl => hl, .inl ⟨rfl, rfl⟩⟩
  · rename_i t ok hpc
    split at h
    · cases h
      unfold TableState.enter
      split
      · exact ⟨⟨_, rfl, fun u hu => (by rw [hpc] at hu; exact hu), nofun⟩,
          fun _ _ _ hl => (List.mem_cons.1 hl).resolve_left nofun, .inl ⟨rfl, rfl⟩⟩
      · exact ⟨⟨_, rfl, fun u hu => (by rw [hpc] at hu; exact hu), nofun⟩, fun _ _ _ hl => hl, .inl ⟨rfl, rfl⟩⟩
    · cases h
      exact ⟨⟨_, rfl, fun u hu => (by rw [hpc] at hu; exact hu), nofun⟩, fun _ _ _ hl => hl, .inl ⟨rfl, rfl⟩⟩
  · rename_i t drop timedOut hpc
    split at h
    · cases h
      exact ⟨⟨_, rfl, fun u hu => (by rw [hpc] at hu; exact hu), nofun⟩,
        fun _ _ _ hl => (List.mem_cons.1 hl).resolve_left nofun, .inl ⟨rfl, rfl⟩⟩
    · cases h
  · cases h

/-! ## Steps of the device model -/

theorem Line.asked_of_calls {s s' : Line} (h : ∀ (i : Nat) (c : RpcCall), s.qemu.dev.calls[i]? = some c →
    ∃ c', s'.qemu.dev.calls[i]? = some c' ∧ c'.header = c.header ∧ c'.request = c.request) (m : Message)
    (hm : s.Asked m) : s'.Asked m := by
  obtain ⟨i, c, hc, rfl⟩ := hm
  obtain ⟨c', hc', hh, hr⟩ := h i c hc
  exact ⟨i, c', hc', by rw [requestOf, requestOf, hh, hr]⟩

theorem rpcStep_deliveries {d d' : Device} {i : Nat} {c : RpcCall} {e : RpcEvent} (h : rpcStep d i c e = some d') :
    d'.deliveries = d.deliveries := by
  unfold rpcStep at h
  split at h
  · split at h
    · cases h; rfl
    · cases h; rfl
  · cases h; rfl
  · cases h; rfl
  · split at h
    · cases h
    · cases h
      unfold Device.conclude
      split
      · rfl
      · rfl
  · cases h; rfl
  · cases h

theorem file_messages (d : Device) (m : MicsMessage) :
    (∀ w ∈ (d.file m).workQueue, w ∈ d.workQueue ∨ w = m ∧ m.isResponse = false) ∧
      ∀ x ∈ (d.file m).deliveries, x ∈ d.deliveries ∨ x.message = m ∧ m.isResponse = true := by
  unfold Device.file
  split
  · rename_i hresp
    split
    · refine ⟨fun w hw => .inl hw, fun x hx => ?_⟩
      rcases List.mem_append.1 hx with hx | hx
      · exact .inl hx
      · rw [List.mem_singleton.1 hx]
        exact .inr ⟨rfl, hresp⟩
    · exact ⟨fun w hw => .inl hw, fun x hx => .inl hx⟩
  · rename_i hresp
    split
    · refine ⟨fun w hw => ?_, fun x hx => .inl hx⟩
      rcases List.mem_append.1 hw with hw | hw
      · exact .inl hw
      · exact .inr ⟨List.mem_singleton.1 hw, by simpa using hresp⟩
    · exact ⟨fun w hw => .inl hw, fun x hx => .inl hx⟩

/-- What the device holds after a step it held before, or has just received; the reader tells responses from requests by
their flag. -/
theorem deviceStep_messages {d d' : Device} {e : DeviceEvent} (h : deviceStep d e = some d') :
    (∀ w, d'.reader = .holding w → d.reader = .holding w ∨ e = .recv w) ∧
      (∀ w ∈ d'.workQueue, w ∈ d.workQueue ∨ d.reader = .holding w ∧ w.isResponse = false) ∧
      ∀ x ∈ d'.deliveries, x ∈ d.deliveries ∨ d.reader = .holding x.message ∧ x.message.isResponse = true := by
  unfold deviceStep at h
  split at h
  · rename_i r now
    cases h
    obtain ⟨hq, hr⟩ := begin_work d r now
    refine ⟨fun w hw => .inl (hr ▸ hw), fun w hw => .inl (hq ▸ hw), fun x hx => .inl ?_⟩
    unfold Device.begin at hx
    split at hx
    · exact hx
    · exact hx
  · split at h
    · cases h
    · obtain ⟨hq, hr⟩ := rpcStep_work h
      exact ⟨fun w hw => .inl (hr ▸ hw), fun w hw => .inl (hq ▸ hw), fun x hx => .inl (rpcStep_deliveries h ▸ hx)⟩
  · rename_i m
    split at h
    · cases h
      exact ⟨fun w hw => .inr (by cases hw; rfl), fun w hw => .inl hw, fun x hx => .inl hx⟩
    · cases h
  · split at h
    · rename_i m hm
      cases h
      obtain ⟨hq, hd⟩ := file_messages d m
      refine ⟨fun w hw => (by cases hw), fun w hw => ?_, fun x hx => ?_⟩
      · refine (hq w hw).imp_right (fun hw => ?_)
        rw [hw.1]
        exact ⟨hm, hw.2⟩
      · refine (hd x hx).imp_right (fun hx => ?_)
        rw [hx.1]
        exact ⟨hm, hx.2⟩
    · cases h
  · split at h
    · cases h
      exact ⟨fun w hw => (by cases hw), fun w hw => .inl hw, fun x hx => .inl hx⟩
    · cases h

theorem LineInv.device {s : Line} (h : LineInv s) {qemu : WorkState} {e : DeviceEvent}
    (hd : deviceStep s.qemu.dev e = some qemu.dev) (hbh : qemu.bh = s.qemu.bh)
    (he : ∀ w, e = .recv w → ∃ m, w = micsOf m ∧ (s.Answered m ∨ s.Demanded m)) : LineInv { s with qemu } := by
  obtain ⟨hreader, hqueue, hfiled⟩ := deviceStep_messages hd
  refine h.move
    { asked := Line.asked_of_calls (fun i c hc => deviceStep_calls hd hc)
      reader := fun w hw => (hreader w hw).imp_right (he w)
      queue := fun w hw => ?_
      filed := fun x hx => ?_ }
  · dsimp only at hw
    rw [hbh] at hw
    rcases List.mem_append.1 hw with hw | hw
    · exact .inl (List.mem_append_left _ hw)
    · rcases hqueue w hw with hw | ⟨hw, hresp⟩
      · exact .inl (List.mem_append_right _ hw)
      · obtain ⟨m, rfl, ha | hdm⟩ := h.reader w hw
        · rw [h.answered_response ha] at hresp
          cases hresp
        · exact .inr ⟨m, rfl, hdm⟩
  · rcases hfiled x hx with hx | ⟨hx, hresp⟩
    · exact .inl hx
    · obtain ⟨m, hxm, ha | hdm⟩ := h.reader _ hx
      · exact .inr ⟨m, hxm, ha⟩
      · rw [hxm, demanded_not_response hdm] at hresp
        cases hresp

theorem Sides.of_device {s : Line} (h : Sides s) {qemu : WorkState} {e : DeviceEvent}
    (hd : deviceStep s.qemu.dev e = some qemu.dev) : Sides { s with qemu } :=
  { h with device := deviceStep_correlated h.device hd, headers := deviceStep_headers hd h.headers }

theorem work_inv {maxTransfer : UInt32} {s : Line} {qemu : WorkState} {e : WorkEvent} (hs : Sides s) (h : LineInv s)
    (hw : workStep maxTransfer s.qemu e = some qemu) (hrecv : ∀ wire payload, e ≠ .recv wire payload) :
    Sides { s with qemu } ∧ LineInv { s with qemu } := by
  cases e with
  | begin r now =>
    simp only [workStep] at hw
    obtain ⟨dev, hdev, rfl⟩ := Option.map_eq_some_iff.1 hw
    exact ⟨hs.of_device hdev, h.device hdev rfl (fun _ he => by cases he)⟩
  | rpc i e =>
    simp only [workStep] at hw
    obtain ⟨dev, hdev, rfl⟩ := Option.map_eq_some_iff.1 hw
    exact ⟨hs.of_device hdev, h.device hdev rfl (fun _ he => by cases he)⟩
  | recv wire payload => exact absurd rfl (hrecv wire payload)
  | file =>
    simp only [workStep] at hw
    split at hw
    · cases hw
    · obtain ⟨dev, hdev, rfl⟩ := Option.map_eq_some_iff.1 hw
      exact ⟨hs.of_device hdev, h.device hdev rfl (fun _ he => by cases he)⟩
  | schedule =>
    simp only [workStep] at hw
    split at hw
    · cases hw
      exact ⟨{ hs with }, h.move { Line.Moves.refl s with }⟩
    · cases hw
  | readerExit =>
    simp only [workStep] at hw
    split at hw
    · cases hw
    · obtain ⟨dev, hdev, rfl⟩ := Option.map_eq_some_iff.1 hw
      exact ⟨hs.of_device hdev, h.device hdev rfl (fun _ he => by cases he)⟩
  | bhRun =>
    simp only [workStep] at hw
    split at hw
    · cases hw
      exact ⟨{ hs with }, h.move
        { Line.Moves.refl s with queue := fun w hw => .inl (List.mem_append_right _ hw) }⟩
    · cases hw
  | take =>
    simp only [workStep] at hw
    split at hw
    · cases hw
      exact ⟨{ hs with }, h.move
        { Line.Moves.refl s with queue := fun w hw => .inl (List.mem_append_right _ hw) }⟩
    · rename_i w q hbh hq
      cases hw
      refine ⟨{ hs with device := { hs.device with } }, h.move
        { Line.Moves.refl s with queue := fun x hx => .inl ?_ }⟩
      rw [hq]
      exact List.mem_append_right _ hx
    · cases hw
  | process ok data now =>
    simp only [workStep] at hw
    split at hw
    · cases hw
      exact ⟨{ hs with }, h.move
        { Line.Moves.refl s with queue := fun w hw => .inl (List.mem_append_right _ hw) }⟩
    · cases hw

theorem repliesOf_mem {maxTransfer : UInt32} {w r : MicsMessage} {ok : Bool} {data : List UInt8} {now : UInt64}
    (h : r ∈ repliesOf maxTransfer w ok data now) : processWork maxTransfer w ok data now = some r := by
  obtain ⟨x, hx, hsent⟩ := List.mem_filterMap.1 h
  have hsend : x = .send r := by
    cases x with
    | send m => exact congrArg _ (Option.some.inj hsent)
    | dmaRead a len b => cases hsent
    | dmaWrite a bs len b => cases hsent
    | msixNotify v => cases hsent
  rw [hsend] at hx
  exact send_mem_workEffects.1 hx

theorem emits_asked {s : Line} (hs : Sides s) {i : Nat} {c : RpcCall} (hc : s.qemu.dev.calls[i]? = some c)
    {e : RpcEvent} {m : Message} (hm : m ∈ emits c e) : m.isDmaRsp = false ∧ s.Asked m := by
  obtain ⟨txnId, now, hh⟩ := hs.headers c (List.mem_of_getElem? hc)
  unfold emits at hm
  split at hm
  · split at hm
    · rw [List.mem_singleton.1 hm]
      refine ⟨?_, i, c, hc, rfl⟩
      rw [hh]
      cases c.request <;> rfl
    · cases hm
  · cases hm

/-! ## Steps of the server -/

theorem Line.demanded_of_calls {s s' : Line} (hcalls : ∀ (i : Nat) (c : SendCall Message) (t : UInt64),
      s.table.calls[i]? = some c → c.pc.id? = some t → ∃ c', s'.table.calls[i]? = some c' ∧ c'.pc.id? = some t)
    (hreq : ∀ (i : Nat) (r : Request), s.requests[i]? = some r → s'.requests[i]? = some r) (m : Message)
    (hm : s.Demanded m) : s'.Demanded m := by
  obtain ⟨i, c, r, t, hc, hr, ht, rfl⟩ := hm
  obtain ⟨c', hc', ht'⟩ := hcalls i c t hc ht
  exact ⟨i, c', r, t, hc', hreq i r hr, ht', rfl⟩

theorem append_getElem? {τ : Type} {ts : List τ} {i : Nat} {c : τ} (h : ts[i]? = some c) (us : List τ) :
    (ts ++ us)[i]? = some c := by
  rw [List.getElem?_append_left (List.getElem?_eq_some_iff.1 h).1]
  exact h

theorem dispatch_inv {maxTransfer : UInt32} {s s' : Line} (hs : Sides s) (h : LineInv s)
    (he : lineStep maxTransfer s .dispatch = some s') : Sides s' ∧ LineInv s' := by
  simp only [lineStep] at he
  split at he
  · cases he
  · rename_i m rest hq
    have hrest : ∀ x ∈ rest, x ∈ s.toServer := fun x hx => by rw [hq]; exact List.mem_cons_of_mem _ hx
    have hm := h.toServer m (by rw [hq]; exact List.mem_cons_self)
    split at he
    · rename_i hrsp
      cases he
      refine ⟨{ hs with table := hs.table.complete _ m, calls := fun hn => ?_ }, h.move
        { Line.Moves.refl s with toServer := fun x hx => .inl (hrest x hx), completed := fun t x ok hx => ?_ }⟩
      · exact (hs.calls hn).shrink rfl (fun u hu => (s.table.pending.complete_pending_none _ u m).2 hu)
      · rcases List.mem_cons.1 hx with hx | hx
        · cases hx
          refine .inr ⟨rfl, hm.resolve_left (fun ha => ?_)⟩
          rw [ha.1] at hrsp
          cases hrsp
        · exact .inl hx
    · rename_i hrsp
      cases he
      refine ⟨{ hs with }, h.move
        { Line.Moves.refl s with toServer := fun x hx => .inl (hrest x hx), inbound := fun x hx => ?_ }⟩
      rcases List.mem_append.1 hx with hx | hx
      · exact .inl hx
      · rw [List.mem_singleton.1 hx]
        exact .inr (hm.resolve_right (fun hr => hrsp (h.replied_isDmaRsp hr))).2

theorem call_inv {maxTransfer : UInt32} {s s' : Line} {r : Request} (hs : Sides s) (h : LineInv s)
    (he : lineStep maxTransfer s (.call r) = some s') : Sides s' ∧ LineInv s' := by
  simp only [lineStep] at he
  obtain ⟨table, htable, rfl⟩ := Option.map_eq_some_iff.1 he
  obtain ⟨htab, -, hcall⟩ := tableStep_inv hs.table htable
  cases htable
  refine ⟨{ hs with table := htab, named := fun c hc => ?_, lengths := ?_,
                       calls := fun hn => hcall hn (hs.calls hn) }, h.move
    { demanded := Line.demanded_of_calls (fun i c t hc ht => ⟨c, append_getElem? hc _, ht⟩)
        (fun i r hr => append_getElem? hr _) }⟩
  · rcases List.mem_append.1 hc with hc | hc
    · exact hs.named c hc
    · rw [List.mem_singleton.1 hc]
      nofun
  · simp [hs.lengths]

theorem send_inv {maxTransfer : UInt32} {s s' : Line} {i : Nat} {e : SendEvent} (hs : Sides s) (h : LineInv s)
    (he : lineStep maxTransfer s (.send i e) = some s') : Sides s' ∧ LineInv s' := by
  simp only [lineStep] at he
  split at he
  · rename_i c r hc hr
    obtain ⟨table, htable, rfl⟩ := Option.map_eq_some_iff.1 he
    obtain ⟨htab, hsuf, hcall⟩ := tableStep_inv hs.table htable
    simp only [tableStep, hc] at htable
    obtain ⟨⟨pc, hcalls, hid, hnamed⟩, hlog, hids⟩ := sendRequestStep_frame htable
    have hkeep : ∀ (j : Nat) (d : SendCall Message) (t : UInt64), s.table.calls[j]? = some d → d.pc.id? = some t →
        ∃ d', table.calls[j]? = some d' ∧ d'.pc.id? = some t := by
      intro j d t hd ht
      rw [hcalls]
      by_cases hj : j = i
      · subst hj
        rw [hc] at hd
        cases hd
        exact ⟨_, (set_getElem? hc j _).2 (.inl ⟨rfl, rfl⟩), hid t ht⟩
      · exact ⟨d, (set_getElem? hc j d).2 (.inr ⟨hj, hd⟩), ht⟩
    have hdem : ∀ m, s.Demanded m → Line.Demanded { s with table, toQemu := s.toQemu ++ demands c r e } m :=
      Line.demanded_of_calls hkeep (fun _ _ hr => hr)
    refine ⟨{ hs with table := htab, named := fun d hd => ?_, lengths := ?_, ids := ?_, nextId := ?_,
                         calls := fun hn => ?_ }, h.move
      { demanded := hdem, toQemu := fun m hm => ?_, completed := fun t m ok hm => .inl (hlog t m ok hm) }⟩
    · rw [hcalls] at hd
      rcases List.mem_or_eq_of_mem_set hd with hd | rfl
      · exact hs.named d hd
      · exact hnamed
    · dsimp only
      rw [hcalls, List.length_set]
      exact hs.lengths
    · dsimp only
      rcases hids with ⟨hids, -⟩ | ⟨hids, -⟩
      · rw [hids]
        exact hs.ids
      · rw [hids, List.length_cons, drawnIds, ← hs.nextId, ← hs.ids]
    · dsimp only
      rcases hids with ⟨hids, hgen⟩ | ⟨hids, hgen⟩
      · rw [hids, hgen]
        exact hs.nextId
      · rw [hids, hgen, List.length_cons, ← Nat.add_assoc, UInt64.ofNat_add, ← hs.nextId]
        rfl
    · exact hcall hn (hs.calls (hn.sublist hsuf.sublist))
    · rcases List.mem_append.1 hm with hm | hm
      · exact .inl hm
      · refine .inr (.inr (hdem m ?_))
        unfold demands at hm
        split at hm
        · rename_i t hpc _
          exact ⟨i, c, r, t, hc, hr, by rw [hpc]; rfl, List.mem_singleton.1 hm⟩
        · cases hm
  · cases he

section Steps

variable {maxTransfer : UInt32} {s : Line} (hs : Sides s) (h : LineInv s)
include hs h

theorem rpc_inv {i : Nat} {e : RpcEvent} {c : RpcCall} {qemu : WorkState} (hc : s.qemu.dev.calls[i]? = some c)
    (hw : workStep maxTransfer s.qemu (.rpc i e) = some qemu) :
    Sides { s with qemu, toServer := s.toServer ++ emits c e } ∧
      LineInv { s with qemu, toServer := s.toServer ++ emits c e } := by
  obtain ⟨hs', h'⟩ := work_inv hs h hw nofun
  refine ⟨{ hs' with }, h'.move { Line.Moves.refl { s with qemu } with toServer := fun m hm => ?_ }⟩
  rcases List.mem_append.1 hm with hm | hm
  · exact .inl hm
  · obtain ⟨hrsp, hasked⟩ := emits_asked hs hc hm
    obtain ⟨dev, hdev, rfl⟩ := Option.map_eq_some_iff.1 hw
    exact .inr (.inl ⟨hrsp, Line.asked_of_calls (fun i c hc => deviceStep_calls hdev hc) m hasked⟩)

theorem recv_inv {m : Message} {rest : List Message} {qemu : WorkState} (hq : s.toQemu = m :: rest)
    (hw : s.qemu.recv (micsOf m) = some qemu) :
    Sides { s with qemu, toQemu := rest } ∧ LineInv { s with qemu, toQemu := rest } := by
  unfold WorkState.recv at hw
  split at hw
  · cases hw
  · obtain ⟨dev, hdev, rfl⟩ := Option.map_eq_some_iff.1 hw
    have hm := h.toQemu m (by rw [hq]; exact List.mem_cons_self)
    have h1 : LineInv { s with toQemu := rest } :=
      h.move { Line.Moves.refl s with toQemu := fun x hx => .inl (by rw [hq]; exact List.mem_cons_of_mem _ hx) }
    have hs1 : Sides { s with toQemu := rest } := { hs with }
    exact ⟨hs1.of_device hdev, h1.device hdev rfl (fun w hw => (by cases hw; exact ⟨m, rfl, hm⟩))⟩

theorem process_inv {ok : Bool} {data : List UInt8} {now : UInt64} {w : MicsMessage} {qemu : WorkState}
    (hbh : s.qemu.bh = .working w) (hw : workStep maxTransfer s.qemu (.process ok data now) = some qemu)
    (sent : Bool) :
    let out := repliesOf maxTransfer w ok data now
    let s' := { s with qemu, toServer := s.toServer ++ (if sent then out.map icsOf else [])
                       replies := s.replies ++ out.map (fun r => (w, r)) }
    Sides s' ∧ LineInv s' := by
  obtain ⟨hs', h'⟩ := work_inv hs h hw nofun
  obtain ⟨m, hwm, hdem⟩ := h.queue w (by rw [hbh]; exact List.mem_append_left _ List.mem_cons_self)
  refine ⟨{ hs' with }, h'.move
    { replied := fun m ⟨w, r, hr, hm⟩ => ⟨w, r, List.mem_append_left _ hr, hm⟩, toServer := fun x hx => ?_
      replies := fun x hx => ?_ }⟩
  · rcases List.mem_append.1 hx with hx | hx
    · exact .inl hx
    · split at hx
      · obtain ⟨r, hr, rfl⟩ := List.mem_map.1 hx
        exact .inr (.inr ⟨w, r, List.mem_append_right _ (List.mem_map.2 ⟨r, hr, rfl⟩), rfl⟩)
      · cases hx
  · rcases List.mem_append.1 hx with hx | hx
    · exact .inl hx
    · obtain ⟨r, hr, rfl⟩ := List.mem_map.1 hx
      have hpw := repliesOf_mem hr
      exact .inr ⟨⟨m, hwm, hdem⟩, (processWork_some hpw).2, (processWork_some hpw).1⟩

theorem poll_inv {m : Message} {inbound : BlockingQueue Message} (hpop : s.inbound.pop = (some m, inbound)) :
    Sides { s with inbound, polled := s.polled ++ [m] } ∧ LineInv { s with inbound, polled := s.polled ++ [m] } := by
  have hq := s.inbound.pop_queue
  rw [hpop] at hq
  have hmem : ∀ x, x = m ∨ x ∈ inbound.queue → x ∈ s.inbound.queue := by
    intro x hx
    rw [← hq]
    simpa using hx
  refine ⟨{ hs with }, h.move
    { Line.Moves.refl s with inbound := fun x hx => .inl (hmem x (.inr hx)), polled := fun x hx => ?_ }⟩
  rcases List.mem_append.1 hx with hx | hx
  · exact .inl hx
  · exact .inr (h.inbound x (hmem x (.inl (List.mem_singleton.1 hx))))

theorem respond_inv {k : Nat} {q a : Message} (hq : s.polled[k]? = some q) (hans : AnswerTo q a) (sent : Bool) :
    let s' := { s with toQemu := s.toQemu ++ (if sent then [a] else []), answers := s.answers ++ [(q, a)] }
    Sides s' ∧ LineInv s' := by
  refine ⟨{ hs with }, h.move
    { answered := fun m ⟨q, hq⟩ => ⟨q, List.mem_append_left _ hq⟩, toQemu := fun m hm => ?_
      answers := fun x hx => ?_ }⟩
  · rcases List.mem_append.1 hm with hm | hm
    · exact .inl hm
    · split at hm
      · rw [List.mem_singleton.1 hm]
        exact .inr (.inl ⟨q, List.mem_append_right _ List.mem_cons_self⟩)
      · cases hm
  · rcases List.mem_append.1 hx with hx | hx
    · exact .inl hx
    · rw [List.mem_singleton.1 hx]
      exact .inr ⟨h.polled q (List.mem_of_getElem? hq), hans⟩

theorem cancelAll_inv {table : TableState Message} (htable : tableStep s.table .cancelAll = some table) :
    Sides { s with table } ∧ LineInv { s with table } := by
  obtain ⟨htab, -, hcall⟩ := tableStep_inv hs.table htable
  cases htable
  exact ⟨{ hs with table := htab, calls := fun hn => hcall hn (hs.calls hn) },
    h.move { Line.Moves.refl s with
      completed := fun t m ok hm => .inl ((List.mem_cons.1 hm).resolve_left (fun hc => by cases hc)) }⟩

end Steps

/-! ## Every run -/

theorem lineStep_inv {maxTransfer : UInt32} {s s' : Line} {e : LineEvent} (hs : Sides s) (h : LineInv s)
    (he : lineStep maxTransfer s e = some s') : Sides s' ∧ LineInv s' := by
  -- an event of QEMU's alone is a step of its work queue
  have hwork : ∀ e : WorkEvent, (∀ wire payload, e ≠ .recv wire payload) →
      (workStep maxTransfer s.qemu e).map (fun qemu => { s with qemu }) = some s' → Sides s' ∧ LineInv s' := by
    intro e hrecv he
    obtain ⟨qemu, hw, rfl⟩ := Option.map_eq_some_iff.1 he
    exact work_inv hs h hw hrecv
  cases e with
  | begin r now => exact hwork (.begin r now) nofun he
  | rpc i e =>
    simp only [lineStep] at he
    split at he
    · cases he
    · rename_i c hc
      obtain ⟨t, ht, rfl⟩ := Option.map_eq_some_iff.1 he
      obtain ⟨qemu, hw, rfl⟩ := Option.map_eq_some_iff.1 ht
      exact rpc_inv hs h hc hw
  | recv =>
    simp only [lineStep] at he
    split at he
    · cases he
    · rename_i m rest hq
      obtain ⟨qemu, hw, rfl⟩ := Option.map_eq_some_iff.1 he
      exact recv_inv hs h hq hw
  | file => exact hwork .file nofun he
  | schedule => exact hwork .schedule nofun he
  | readerExit => exact hwork .readerExit nofun he
  | bhRun => exact hwork .bhRun nofun he
  | take => exact hwork .take nofun he
  | process ok data now sent =>
    simp only [lineStep] at he
    split at he
    · rename_i w hbh
      obtain ⟨t, ht, rfl⟩ := Option.map_eq_some_iff.1 he
      obtain ⟨qemu, hw, rfl⟩ := Option.map_eq_some_iff.1 ht
      exact process_inv hs h hbh hw sent
    · cases he
  | dispatch => exact dispatch_inv hs h he
  | poll =>
    simp only [lineStep] at he
    split at he
    · cases he
      exact ⟨hs, h⟩
    · rename_i m inbound hpop
      cases he
      exact poll_inv hs h hpop
  | respond k a sent =>
    simp only [lineStep] at he
    split at he
    · cases he
    · rename_i q hq
      split at he
      · rename_i hans
        cases he
        exact respond_inv hs h hq hans sent
      · cases he
  | call r => exact call_inv hs h he
  | send i e => exact send_inv hs h he
  | cancelAll =>
    simp only [lineStep] at he
    obtain ⟨table, htable, rfl⟩ := Option.map_eq_some_iff.1 he
    exact cancelAll_inv hs h htable

theorem line_run {maxTransfer : UInt32} {es : List LineEvent} {s : Line}
    (h : run (lineStep maxTransfer) Line.init es = some s) : Sides s ∧ LineInv s :=
  Run.run_invariant (fun _ _ _ hi he => lineStep_inv hi.1 hi.2 he) es _ s ⟨sides_init, lineInv_init⟩ h

theorem completed_of_returned {s : TableState Message} (h : TableInv s) {c : SendCall Message} {t : UInt64}
    {m : Message} (hc : c ∈ s.calls) (hpc : c.pc = .returned (some t) (some m)) :
    .completed t m true ∈ s.log := by
  obtain ⟨later, earlier, hlog⟩ := List.append_of_mem (h.results c hc t m hpc)
  have hg : Genuine (.returned t (some m) :: earlier) := Genuine.suffix later (hlog ▸ h.genuine)
  obtain ⟨a, b, d, hearlier⟩ := completed_of_replay hg.2 (Option.join_eq_some_iff.1 hg.1.symm)
  rw [hlog, hearlier]
  simp

/-- **The two spaces of identifiers never cross**, under every interleaving, as long as neither side has wrapped its
counter: `pcie_vip_rpc` returns only what the RTL side answered to that very request, and `SendRequestToHost` only what
the bottom half answered to that very one. -/
theorem txn_spaces_apart (maxTransfer : UInt32) (es : List LineEvent) (s : Line)
    (h : run (lineStep maxTransfer) Line.init es = some s) (hq : s.qemu.dev.calls.length < 2 ^ 64)
    (hb : s.table.ids.length < 2 ^ 64) :
    (∀ (i : Nat) (c : RpcCall) (m : MicsMessage), s.qemu.dev.calls[i]? = some c → c.pc = .returned (some m) →
      ∃ a, (requestOf c, a) ∈ s.answers ∧ m = micsOf a) ∧
    (∀ (i : Nat) (c : SendCall Message) (id : Option UInt64) (m : Message), s.table.calls[i]? = some c →
      c.pc = .returned id (some m) →
      ∃ r t a, s.requests[i]? = some r ∧ id = some t ∧ (micsOf (r.message t), a) ∈ s.replies ∧ m = icsOf a) := by
  obtain ⟨hs, hi⟩ := line_run h
  refine ⟨fun i c m hc hpc => ?_, fun i c id m hc hpc => ?_⟩
  · obtain ⟨hf, -, -⟩ := hs.device.returned i c m hc hpc
    obtain ⟨a, hma, q, hqa⟩ := hi.filed _ hf.mem
    obtain ⟨⟨j, d, hd, hqd⟩, -, hans⟩ := hi.answers _ hqa
    dsimp only at hma hqd hans
    -- the two calls have the same identifier, so they are the same
    have hid : UInt64.ofNat (2 + j) = UInt64.ofNat (2 + i) := by
      rw [← hs.device.txnId j d hd, ← hs.device.txnId i c hc, ← hf.txnId, hma]
      change d.header.txnId = a.header.txnId
      rw [hans, hqd]
      rfl
    have hj := (List.getElem?_eq_some_iff.1 hd).1
    have hi' := (List.getElem?_eq_some_iff.1 hc).1
    have hnat := congrArg UInt64.toNat hid
    simp only [UInt64.toNat_ofNat'] at hnat
    have hij : j = i := by omega
    subst hij
    rw [hc] at hd
    cases hd
    exact ⟨a, hqd ▸ hqa, hma⟩
  · have hmem := List.mem_of_getElem? hc
    cases id with
    | none => exact absurd hpc (hs.named c hmem m)
    | some t =>
      obtain ⟨htm, w, a, hwa, hma⟩ := hi.completed t m true (completed_of_returned hs.table hmem hpc)
      obtain ⟨⟨x, hwx, j, d, r, u, hd, hr, hu, hxr⟩, hans, -⟩ := hi.replies _ hwa
      dsimp only at hwx hans
      have hut : u = t := by
        rw [htm, hma]
        change u = a.h.txnId
        rw [hans, hwx, hxr]
        rfl
      subst hut
      have hnodup : s.table.ids.Nodup := by
        rw [hs.ids]
        exact drawnIds_nodup hb
      have hij := (hs.calls hnodup).distinct i j c d u hc hd (by rw [hpc]; rfl) hu
      subst hij
      exact ⟨r, u, a, hr, rfl, hxr ▸ hwx ▸ hwa, hma⟩

/-- A BAR read and a DMA read under the same identifier, both outstanding at once. -/
theorem txn_spaces_apart_two :
    let ready : List PollRet := [.revents false false false true]
    let dma : Request := ⟨.dmaReadReq, 0x4000, 0, [], 2, 0, true⟩
    let a : Message := ⟨makeHeader .mmioReadRsp 2 0x1c 0 .success 0 4 kFlagIsResponse, [1, 0, 0, 0]⟩
    let es : List LineEvent :=
      [.begin (.read 0x1c 4) 0, .rpc 0 .lock, .rpc 0 .check, .rpc 0 (.write [⟨ready, [.wrote 64]⟩]), .dispatch, .poll,
        .call dma, .call dma, .send 0 (.check true), .send 1 (.check true), .send 0 .register, .send 1 .register,
        .send 0 (.sent true), .send 1 (.sent true), .respond 0 a true, .recv, .file, .schedule, .recv, .file, .schedule,
        .recv, .file, .rpc 0 (.finish false), .bhRun, .take, .process true [7, 8] 0 true, .take,
        .process true [9, 10] 0 true, .dispatch, .dispatch, .send 1 (.wake false)]
    ∃ s, run (lineStep 4096) Line.init es = some s ∧
      s.qemu.dev.calls.map (fun c => (c.header.txnId, c.pc)) = [(2, .returned (some (micsOf a)))] ∧
      s.table.calls.map (·.pc.id?) = [some 1, some 2] ∧
      (∃ b, (micsOf (dma.message 2), b) ∈ s.replies ∧ b.payload = [9, 10]) := by
  intro ready dma a es
  have hrun : (run (lineStep 4096) Line.init es).map
      (fun s => (s.qemu.dev.calls, s.table.calls, s.requests, s.table.ids))
      = some ([⟨.read 0x1c 4, ⟨3, 0, 0, 2, 0, 0x1c, 0xf0, 0, 4⟩, .returned (some (micsOf a))⟩],
        [⟨true, .waiting 1 false⟩, ⟨true, .returned (some 2) (some
          ⟨makeHeader .dmaReadRsp 2 0x4000 0 .success 0 2 kFlagIsResponse, [9, 10]⟩)⟩], [dma, dma], [2, 1]) := by
    decide +kernel
  obtain ⟨s, hs, heq⟩ := Option.map_eq_some_iff.1 hrun
  simp only [Prod.mk.injEq] at heq
  obtain ⟨hrpc, hsend, hreq, hids⟩ := heq
  obtain ⟨-, hreplied⟩ := txn_spaces_apart 4096 es s hs (by rw [hrpc]; decide) (by rw [hids]; decide)
  obtain ⟨r, t, b, hr, ht, hb, hm⟩ := hreplied 1 _ _ _ (by rw [hsend]; rfl) rfl
  rw [hreq] at hr
  cases hr
  cases ht
  exact ⟨s, hs, by rw [hrpc]; rfl, by rw [hsend]; rfl, b, hb, (congrArg Message.payload hm).symm⟩

end Joint
end Vip
