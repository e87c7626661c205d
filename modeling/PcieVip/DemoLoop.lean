import PcieVip.DemoBackends
import PcieVip.LibLog
/-!
# DemoLoop — the demo run against a backend

The client of `HostDemo`, the server, and a backend of `DemoBackends`: each gets what the other sends, in the order in
which it was sent, and whatever is sent arrives.  Neither side knows what is to come, so each message is determined by
those before it, and the whole exchange is worked out from the first request on (`demo_passes`).
-/
namespace Vip
namespace Endpoint

open HostClient Ics Verilator

/-! ## The server between them -/

/-- What the queue of the server gets of the client's messages; the first is the greeting. -/
def queued (sent : List Message) : List Message := sent.tail.filter (fun m => !m.isDmaRsp)

/-- The messages of what a backend sends: a request goes under the next identifier of the server, and `time` is the
simulation time in its header. -/
def onWire (time : UInt64 → UInt64) : TransactionIdGenerator → List Out → List Message
  | _, []                       => []
  | g, .response h p :: os      => ⟨h, p⟩ :: onWire time g os
  | g, .request t a p n :: os   =>
    let id := g.next
    ⟨makeHeader t id.1 a 0 .success (time id.1) (UInt32.ofNat p.length) kFlagNone n, p⟩ :: onWire time id.2 os

def awaited : TransactionIdGenerator → List Out → List UInt64
  | _, []                      => []
  | g, .response _ _ :: os     => awaited g os
  | g, .request t _ _ _ :: os  =>
    let id := g.next
    if t = .dmaReadReq ∨ t = .dmaWriteReq then id.1 :: awaited id.2 os else awaited id.2 os

def answerTo (sent : List Message) (txnId : UInt64) : Option Message :=
  sent.find? (fun m => m.isDmaRsp && m.header.txnId == txnId)

variable {σ : Type}

def Backend.feed (b : Backend σ) (x : σ × Script) (ms : List Message) : σ × Script :=
  ms.foldl (fun x m => b.handle x.1 m x.2) x

def clientSent (w : Net) (rx : List RxTurn) : List Message := (runDemo w { rx }).2.sent

def backendRun (b : Backend σ) (s : σ) (answers : List (Option Message)) (sent : List Message) : σ × Script :=
  b.feed (s, ⟨answers, []⟩) (queued sent)

/-- The client and the backend, joined by a healthy connection on which nothing times out. -/
structure Joined (w : Net) (rx : List RxTurn) (b : Backend σ) (s : σ) (g : TransactionIdGenerator)
    (time : UInt64 → UInt64) (answers : List (Option Message)) : Prop where
  up      : connect w = true
  taken   : ∀ i m, (clientSent w rx)[i]? = some m → takesAll m.bytes.length (w.tx i) = true
  clean   : ∀ t ∈ rx, t.Clean
  stream  : ∃ hello, (clientSent w rx).head? = some hello ∧ streamOf rx =
    bytesOf (helloAck hello :: onWire time g (backendRun b s answers (clientSent w rx)).2.log)
  answers : ∀ k id, (awaited g (backendRun b s answers (clientSent w rx)).2.log)[k]? = some id →
    answers.getD k none = answerTo (clientSent w rx) id

/-! ## Causes come first -/

theorem Backend.feed_grows (b : Backend σ) (ms : List Message) (x : σ × Script) : x.2.log <+: (b.feed x ms).2.log := by
  induction ms generalizing x with
  | nil          => exact List.prefix_rfl
  | cons m ms ih => exact (b.grows x.1 m x.2).trans (ih (b.handle x.1 m x.2))

theorem Backend.feed_mono (b : Backend σ) {ms ms' : List Message} (h : ms <+: ms') (x : σ × Script) :
    (b.feed x ms).2.log <+: (b.feed x ms').2.log := by
  obtain ⟨more, rfl⟩ := h
  unfold Backend.feed
  rw [List.foldl_append]
  exact b.feed_grows more _

theorem queued_mono {sent sent' : List Message} (h : sent <+: sent') : queued sent <+: queued sent' := by
  obtain ⟨more, rfl⟩ := h
  cases sent with
  | nil         => exact List.nil_prefix
  | cons m sent => exact List.IsPrefix.filter _ (List.prefix_append sent more)

theorem queued_concat {sent : List Message} (hne : sent ≠ []) {m : Message} (hm : m.isDmaRsp = false) :
    queued (sent ++ [m]) = queued sent ++ [m] := by
  unfold queued
  rw [List.tail_append_of_ne_nil hne, List.filter_append, List.filter_cons_of_pos (by rw [hm]; rfl), List.filter_nil]

theorem backendRun_mono (b : Backend σ) (s : σ) (answers : List (Option Message)) {sent sent' : List Message}
    (h : sent <+: sent') : (backendRun b s answers sent).2.log <+: (backendRun b s answers sent').2.log :=
  b.feed_mono (queued_mono h) _

theorem backendRun_concat (b : Backend σ) (s : σ) (answers : List (Option Message)) {sent : List Message}
    (hne : sent ≠ []) {m : Message} (hm : m.isDmaRsp = false) :
    backendRun b s answers (sent ++ [m]) =
      b.handle (backendRun b s answers sent).1 m (backendRun b s answers sent).2 := by
  unfold backendRun Backend.feed
  rw [queued_concat hne hm, List.foldl_append]
  rfl

theorem answerTo_eq {sent pre post : List Message} {m : Message} {txnId : UInt64} (hs : pre ++ m :: post = sent)
    (hpre : ∀ m' ∈ pre, (m'.isDmaRsp && m'.header.txnId == txnId) = false)
    (hm : m.isDmaRsp = true) (hid : m.header.txnId = txnId) : answerTo sent txnId = some m := by
  have hnone : pre.find? (fun m => m.isDmaRsp && m.header.txnId == txnId) = none :=
    List.find?_eq_none.2 (fun m' hm' => by rw [hpre m' hm']; exact Bool.false_ne_true)
  rw [answerTo, ← hs, List.find?_append, hnone, Option.none_or, List.find?_cons_of_pos (by rw [hm, hid]; simp)]

/-! ## The requests of the client -/

def Calm (os : List Out) : Prop := ∀ o ∈ os, ∃ h p, o = .response h p

theorem awaited_calm {os : List Out} (h : Calm os) (g : TransactionIdGenerator) (os' : List Out) :
    awaited g (os ++ os') = awaited g os' := by
  induction os with
  | nil          => rfl
  | cons o os ih =>
    obtain ⟨hdr, p, rfl⟩ := h o List.mem_cons_self
    exact ih (fun o ho => h o (List.mem_cons_of_mem _ ho))

/-- The client at `d` has read all that the backend sent to it so far, and the answers to DMA are all to come. -/
structure Reached (b : Backend σ) (s : σ) (g : TransactionIdGenerator) (time : UInt64 → UInt64)
    (answers : List (Option Message)) (final : List Message) (d : Demo) : Prop where
  greeted : d.sent ≠ []
  silent  : ∀ m ∈ d.sent, m.isDmaRsp = false
  calm    : Calm (backendRun b s answers d.sent).2.log
  left    : (backendRun b s answers d.sent).2.answers = answers
  clean   : ∀ t ∈ d.rx, t.Clean
  stream  : ∃ more, (backendRun b s answers final).2.log = (backendRun b s answers d.sent).2.log ++ more ∧
    streamOf d.rx = bytesOf (onWire time g more)
  idle    : b.idle (backendRun b s answers d.sent).1

section Ask

variable {b : Backend σ} {s : σ} {g : TransactionIdGenerator} {time : UInt64 → UInt64} {answers : List (Option Message)}
  {final : List Message} {w : Net} {d : Demo}

def demoRequest (w : Net) (d : Demo) (type : MessageType) (address byteEnable : UInt64) (payload : List UInt8) :
    Message :=
  Call.request ⟨type, address, byteEnable, payload, w.now d.sent.length⟩ d.txnGen.nextId

theorem ask_sent (w : Net) (d : Demo) (type : MessageType) (address byteEnable : UInt64) (payload : List UInt8) :
    (d.ask w type address byteEnable payload).2.sent = d.sent ++ [demoRequest w d type address byteEnable payload] := by
  simp only [Demo.ask, sendRequestAndWait_request]
  rfl

theorem ask_exchange (w : Net) (d : Demo) (type : MessageType) (address byteEnable : UInt64) (payload : List UInt8) :
    let e := sendRequestAndWait d.txnGen ⟨type, address, byteEnable, payload, w.now d.sent.length⟩ (w.tx d.sent.length)
      d.rx
    (d.ask w type address byteEnable payload).1 = e.answer ∧ (d.ask w type address byteEnable payload).2.rx = e.rest ∧
      (d.ask w type address byteEnable payload).2.memory = d.memory := by
  simp only [Demo.ask, and_self]

theorem isDmaRsp_demoRequest (w : Net) (d : Demo) {type : MessageType} (address byteEnable : UInt64)
    (payload : List UInt8) (ht : type ≠ .dmaReadRsp ∧ type ≠ .dmaWriteRsp) :
    (demoRequest w d type address byteEnable payload).isDmaRsp = false := by
  have htype : (demoRequest w d type address byteEnable payload).header.isType type = true := isType_makeHeader ..
  rw [Message.isDmaRsp, Header.isType_of_ne htype ht.1, Header.isType_of_ne htype ht.2]
  rfl

/-- **The answer to a request is the first thing that the backend sends after it**, and it is what the client gets. -/
theorem Reached.answered (h : Reached b s g time answers final d) {type : MessageType} {address byteEnable : UInt64}
    {payload p : List UInt8} {hdr : Header} (asked : List Out) (htype : type ≠ .dmaReadRsp ∧ type ≠ .dmaWriteRsp)
    (hlog : (b.handle (backendRun b s answers d.sent).1 (demoRequest w d type address byteEnable payload)
      (backendRun b s answers d.sent).2).2.log = (backendRun b s answers d.sent).2.log ++ .response hdr p :: asked)
    (hwire : Message.WellFormed ⟨hdr, p⟩)
    (htaken : ∀ i m, final[i]? = some m → takesAll m.bytes.length (w.tx i) = true)
    (hpre : (d.ask w type address byteEnable payload).2.sent <+: final) :
    let r := d.ask w type address byteEnable payload
    r.1 = some ⟨hdr, p⟩ ∧ (∀ t ∈ r.2.rx, t.Clean) ∧ ∃ more,
      (backendRun b s answers final).2.log =
          (backendRun b s answers d.sent).2.log ++ .response hdr p :: (asked ++ more) ∧
        streamOf r.2.rx = bytesOf (onWire time g (asked ++ more)) := by
  intro r
  have hsent : r.2.sent = d.sent ++ [_] := ask_sent w d type address byteEnable payload
  obtain ⟨hfst, hrx, -⟩ := ask_exchange w d type address byteEnable payload
  have hrun := backendRun_concat b s answers h.greeted
    (isDmaRsp_demoRequest w d address byteEnable payload htype)
  obtain ⟨more', hmore'⟩ := backendRun_mono b s answers hpre
  obtain ⟨more, hmore, hstream⟩ := h.stream
  rw [show (d.ask w type address byteEnable payload).2.sent = _ from hsent, hrun, hlog, List.append_assoc,
    List.cons_append] at hmore'
  have heq : more = .response hdr p :: (asked ++ more') := by
    rw [← hmore'] at hmore
    exact (List.append_cancel_left hmore).symm
  rw [heq, onWire, bytesOf_cons] at hstream
  have htx : takesAll (demoRequest w d type address byteEnable payload).bytes.length (w.tx d.sent.length) = true := by
    refine htaken _ _ (Log.prefix_getElem? hpre ?_)
    rw [show (d.ask w type address byteEnable payload).2.sent = _ from hsent,
      List.getElem?_append_right (Nat.le_refl _), Nat.sub_self]
    rfl
  obtain ⟨hgot, hrest, hclean⟩ := answer_healthy d.txnGen ⟨type, address, byteEnable, payload, w.now d.sent.length⟩ htx
    h.clean hwire hstream
  rw [← hrx] at hrest hclean
  exact ⟨hfst.trans hgot, hclean, more', hmore'.symm, hrest⟩

/-- **After a request that is answered and asks for nothing, all is read again.** -/
theorem Reached.ask (h : Reached b s g time answers final d) {type t : MessageType} {address byteEnable : UInt64}
    {payload p : List UInt8} {s' : σ} (htype : type ≠ .dmaReadRsp ∧ type ≠ .dmaWriteRsp)
    (hans : Answers b.handle (backendRun b s answers d.sent).1 (demoRequest w d type address byteEnable payload) t p s')
    (hidle : b.idle s') (htaken : ∀ i m, final[i]? = some m → takesAll m.bytes.length (w.tx i) = true)
    (hpre : (d.ask w type address byteEnable payload).2.sent <+: final) :
    let r := d.ask w type address byteEnable payload
    (∃ hdr, r.1 = some ⟨hdr, p⟩ ∧ Good hdr t p) ∧ Reached b s g time answers final r.2 ∧
      (backendRun b s answers r.2.sent).1 = s' ∧ r.2.memory = d.memory := by
  intro r
  have hsent : r.2.sent = d.sent ++ [_] := ask_sent w d type address byteEnable payload
  obtain ⟨-, -, hmem⟩ := ask_exchange w d type address byteEnable payload
  have hdma : (demoRequest w d type address byteEnable payload).isDmaRsp = false :=
    isDmaRsp_demoRequest w d address byteEnable payload htype
  obtain ⟨hdr, hgood, hhandle⟩ := hans (backendRun b s answers d.sent).2
  have hrun := backendRun_concat b s answers h.greeted hdma
  rw [hhandle] at hrun
  have hlog : (backendRun b s answers r.2.sent).2.log = (backendRun b s answers d.sent).2.log ++ [.response hdr p] := by
    rw [hsent, hrun]
    rfl
  obtain ⟨hgot, hclean, more, hmore, hstream⟩ :=
    h.answered [] htype (by rw [hhandle]; rfl) hgood.wire htaken hpre
  refine ⟨⟨hdr, hgot, hgood⟩, ⟨?_, ?_, ?_, ?_, hclean, ⟨more, ?_, hstream⟩, ?_⟩, ?_, hmem⟩
  · rw [hsent]
    exact List.append_ne_nil_of_right_ne_nil _ (List.cons_ne_nil _ _)
  · intro m hm
    rw [hsent] at hm
    rcases List.mem_append.1 hm with hm | hm
    · exact h.silent m hm
    · rw [List.mem_singleton.1 hm]
      exact hdma
  · intro o ho
    rw [hlog] at ho
    rcases List.mem_append.1 ho with ho | ho
    · exact h.calm o ho
    · exact ⟨hdr, p, List.mem_singleton.1 ho⟩
  · rw [hsent, hrun]
    exact h.left
  · rw [hmore, hlog, List.append_assoc]
    rfl
  · rw [hsent, hrun]
    exact hidle
  · rw [hsent, hrun]

end Ask

/-! ## The steps of the run -/

/-- From `P`, and if all that is sent on the way is sent in the end, the step succeeds and leaves `Q`. -/
def Succeeds (final : List Message) (op : Demo → Bool × Demo) (P Q : Demo → Prop) : Prop :=
  ∀ d, P d → (op d).2.sent <+: final → (op d).1 = true ∧ Q (op d).2

def Forward (op : Demo → Bool × Demo) : Prop := ∀ d, d.sent <+: (op d).2.sent

theorem Forward.andThen {op k : Demo → Bool × Demo} (ho : Forward op) (hk : Forward k) :
    Forward (fun d => andThen (op d) k) := by
  intro d
  dsimp only
  unfold HostClient.andThen
  split
  · exact (ho d).trans (hk _)
  · exact ho d

/-- **One step after the other.** -/
theorem Succeeds.andThen {final : List Message} {op k : Demo → Bool × Demo} {P Q R : Demo → Prop}
    (ho : Succeeds final op P Q) (hk : Succeeds final k Q R) (hf : Forward k) :
    Succeeds final (fun d => andThen (op d) k) P R := by
  intro d hd hpre
  dsimp only at hpre ⊢
  have hsent : (op d).2.sent <+: final := by
    refine List.IsPrefix.trans ?_ hpre
    unfold HostClient.andThen
    split
    · exact hf _
    · exact List.prefix_rfl
  obtain ⟨hok, hq⟩ := ho d hd hsent
  have heq : HostClient.andThen (op d) k = k (op d).2 := by rw [HostClient.andThen, if_pos hok]
  rw [heq] at hpre ⊢
  exact hk _ hq hpre

theorem ask_forward (w : Net) (d : Demo) (type : MessageType) (address byteEnable : UInt64) (payload : List UInt8) :
    d.sent <+: (d.ask w type address byteEnable payload).2.sent := by
  rw [ask_sent]
  exact List.prefix_append ..

theorem write32_ask (w : Net) (addr : UInt64) (value : UInt32) (d : Demo) :
    let r := d.ask w .mmioWriteReq addr 0xf (encodeU32 value)
    (mmioWrite32 w addr value d).1 = r.1.any (accepts .mmioWriteRsp) ∧ (mmioWrite32 w addr value d).2 = r.2 := by
  simp only [mmioWrite32, and_self]

theorem write64_ask (w : Net) (addr value : UInt64) (d : Demo) :
    let r := d.ask w .mmioWriteReq addr 0xff (encodeU64 value)
    (mmioWrite64 w addr value d).1 = r.1.any (accepts .mmioWriteRsp) ∧ (mmioWrite64 w addr value d).2 = r.2 := by
  simp only [mmioWrite64, and_self]

theorem write32_forward (w : Net) (addr : UInt64) (value : UInt32) : Forward (mmioWrite32 w addr value) := by
  intro d
  rw [(write32_ask w addr value d).2]
  exact ask_forward ..

theorem write64_forward (w : Net) (addr value : UInt64) : Forward (mmioWrite64 w addr value) := by
  intro d
  rw [(write64_ask w addr value d).2]
  exact ask_forward ..

theorem reset_forward (w : Net) : Forward (doReset w) := by
  intro d
  simp only [doReset]
  exact ask_forward ..

theorem configure_forward (w : Net) : Forward (configureAdminQueues w) :=
  Forward.andThen (write64_forward w _ _) (Forward.andThen (write64_forward w _ _) (write32_forward w _ _))

theorem poll_forward (w : Net) (n : Nat) : Forward (pollReady w n) := by
  induction n with
  | zero      => exact fun _ => List.prefix_rfl
  | succ n ih =>
    intro d
    have hread : d.sent <+: (mmioRead32 w kControllerStatus d).2.sent := by
      simp only [mmioRead32]
      exact ask_forward ..
    unfold pollReady
    dsimp only
    split
    · exact hread
    · split
      · exact hread
      · exact hread.trans (ih _)

theorem enable_forward (w : Net) : Forward (enableControllerAndWaitReady w) :=
  Forward.andThen (write32_forward w _ _) (poll_forward w 50)

theorem mock_forward : Forward writeMockNvmeCommand := by
  intro d
  unfold writeMockNvmeCommand
  split <;> exact List.prefix_rfl

theorem service_forward (w : Net) : Forward (serviceRtl w) := fun _ => List.prefix_append ..

/-! ## The registers -/

section Steps

variable {b : Backend σ} {s : σ} {g : TransactionIdGenerator} {time : UInt64 → UInt64} {answers : List (Option Message)}
  {final : List Message} {w : Net}

structure Shows (b : Backend σ) (s : σ) (g : TransactionIdGenerator) (time : UInt64 → UInt64)
    (answers : List (Option Message)) (final : List Message) (φ : Face → Prop) (mem : HostMemory) (d : Demo) :
    Prop where
  reached : Reached b s g time answers final d
  face    : φ (b.face (backendRun b s answers d.sent).1)
  memory  : d.memory = mem

theorem accepts_good {hdr : Header} {t : MessageType} {p : List UInt8} (h : Good hdr t p) :
    accepts t ⟨hdr, p⟩ = true := by
  rw [accepts, h.type, h.status]
  rfl

variable (htaken : ∀ i m, final[i]? = some m → takesAll m.bytes.length (w.tx i) = true)
include htaken

theorem write_succeeds {φ ψ : Face → Prop} {mem : HostMemory} {addr byteEnable : UInt64} {payload : List UInt8}
    {op : Demo → Bool × Demo}
    (hop : ∀ d, let r := d.ask w .mmioWriteReq addr byteEnable payload
      (op d).1 = r.1.any (accepts .mmioWriteRsp) ∧ (op d).2 = r.2)
    (hb : ∀ s id now, b.idle s → ∃ s',
      Answers b.handle s (Call.request ⟨.mmioWriteReq, addr, byteEnable, payload, now⟩ id) .mmioWriteRsp [] s' ∧
        b.idle s' ∧ (φ (b.face s) → ψ (b.face s'))) :
    Succeeds final op (Shows b s g time answers final φ mem) (Shows b s g time answers final ψ mem) := by
  intro d hd hpre
  obtain ⟨hok, hop⟩ := hop d
  rw [hop] at hpre
  rw [hok, hop]
  obtain ⟨s', hans, hidle, hface⟩ := hb _ d.txnGen.nextId (w.now d.sent.length) hd.reached.idle
  obtain ⟨⟨hdr, hgot, hgood⟩, hreached, hrun, hmem⟩ := hd.reached.ask (by decide) hans hidle htaken hpre
  refine ⟨?_, hreached, ?_, hmem.trans hd.memory⟩
  · rw [hgot]
    exact accepts_good hgood
  · rw [hrun]
    exact hface hd.face

theorem reset_succeeds {mem : HostMemory} :
    Succeeds final (doReset w) (Shows b s g time answers final (fun _ => True) mem)
      (Shows b s g time answers final (fun _ => True) mem) := by
  intro d hd hpre
  simp only [doReset] at hpre ⊢
  obtain ⟨s', hans, hidle⟩ := b.reset _ d.txnGen.nextId (w.now d.sent.length) hd.reached.idle
  obtain ⟨⟨hdr, hgot, hgood⟩, hreached, -, hmem⟩ := hd.reached.ask (by decide) hans hidle htaken hpre
  refine ⟨?_, hreached, trivial, hmem.trans hd.memory⟩
  rw [hgot]
  exact accepts_good hgood

theorem configure_succeeds {mem : HostMemory} :
    Succeeds final (configureAdminQueues w) (Shows b s g time answers final (fun _ => True) mem)
      (Shows b s g time answers final (fun f => f.asq = kAsqBase ∧ f.acq = kAcqBase) mem) := by
  have h1 : Succeeds final (mmioWrite64 w kAdminSubmissionQueueBase kAsqBase)
      (Shows b s g time answers final (fun _ => True) mem)
      (Shows b s g time answers final (fun f => f.asq = kAsqBase) mem) := by
    refine write_succeeds htaken (write64_ask w _ _) (fun s id now hidle => ?_)
    obtain ⟨s', hans, hidle, hface⟩ := b.asq s kAsqBase id now hidle
    exact ⟨s', hans, hidle, fun _ => by rw [hface]⟩
  have h2 : Succeeds final (mmioWrite64 w kAdminCompletionQueueBase kAcqBase)
      (Shows b s g time answers final (fun f => f.asq = kAsqBase) mem)
      (Shows b s g time answers final (fun f => f.asq = kAsqBase ∧ f.acq = kAcqBase) mem) := by
    refine write_succeeds htaken (write64_ask w _ _) (fun s id now hidle => ?_)
    obtain ⟨s', hans, hidle, hface⟩ := b.acq s kAcqBase id now hidle
    exact ⟨s', hans, hidle, fun h => by rw [hface]; exact ⟨h, rfl⟩⟩
  have h3 : Succeeds final (mmioWrite32 w kAdminQueueAttributes kAqa)
      (Shows b s g time answers final (fun f => f.asq = kAsqBase ∧ f.acq = kAcqBase) mem)
      (Shows b s g time answers final (fun f => f.asq = kAsqBase ∧ f.acq = kAcqBase) mem) := by
    refine write_succeeds htaken (write32_ask w _ _) (fun s id now hidle => ?_)
    obtain ⟨s', hans, hidle, hface⟩ := b.aqa s kAqa id now hidle
    exact ⟨s', hans, hidle, fun h => by rw [hface]; exact h⟩
  exact h1.andThen (h2.andThen h3 (write32_forward w _ _))
    (Forward.andThen (write64_forward w _ _) (write32_forward w _ _))

theorem poll_succeeds {φ : Face → Prop} {mem : HostMemory} (hready : ∀ f, φ f → f.ready = true) (n : Nat) :
    Succeeds final (pollReady w (n + 1)) (Shows b s g time answers final φ mem)
      (Shows b s g time answers final φ mem) := by
  intro d hd hpre
  obtain ⟨p, s', hans, hidle, hface, hlen, hbit⟩ := b.csts _ d.txnGen.nextId (w.now d.sent.length) hd.reached.idle
  have hsent : (d.ask w .mmioReadReq kControllerStatus 0xf []).2.sent <+: final := by
    refine List.IsPrefix.trans ?_ hpre
    unfold pollReady
    simp only [mmioRead32]
    split
    · exact List.prefix_rfl
    · split
      · exact List.prefix_rfl
      · exact poll_forward w n _
  obtain ⟨⟨hdr, hgot, hgood⟩, hreached, hrun, hmem⟩ := hd.reached.ask (by decide) hans hidle htaken hsent
  have hval : readValue ⟨hdr, p⟩ = some (getU32 p) := by
    rw [readValue, accepts_good hgood, if_pos (by simp [hlen])]
  have hread : (mmioRead32 w kControllerStatus d).1 = some (getU32 p) := by
    simp only [mmioRead32]
    rw [hgot]
    exact hval
  unfold pollReady
  simp only [hread]
  rw [if_pos (hbit (hready _ hd.face))]
  refine ⟨rfl, ?_⟩
  simp only [mmioRead32]
  refine ⟨hreached, ?_, hmem.trans hd.memory⟩
  rw [hrun, hface]
  exact hd.face

theorem enable_succeeds {mem : HostMemory} :
    Succeeds final (enableControllerAndWaitReady w)
      (Shows b s g time answers final (fun f => f.asq = kAsqBase ∧ f.acq = kAcqBase) mem)
      (Shows b s g time answers final (fun f => f.asq = kAsqBase ∧ f.acq = kAcqBase ∧ f.ready = true) mem) := by
  have h1 : Succeeds final (mmioWrite32 w kControllerConfiguration kCcEnable)
      (Shows b s g time answers final (fun f => f.asq = kAsqBase ∧ f.acq = kAcqBase) mem)
      (Shows b s g time answers final (fun f => f.asq = kAsqBase ∧ f.acq = kAcqBase ∧ f.ready = true) mem) := by
    refine write_succeeds htaken (write32_ask w _ _) (fun s id now hidle => ?_)
    obtain ⟨s', hans, hidle, hface⟩ := b.enable s id now hidle
    exact ⟨s', hans, hidle, fun h => by rw [hface]; exact ⟨h.1, h.2, rfl⟩⟩
  exact h1.andThen (poll_succeeds htaken (fun _ h => h.2.2) 49) (poll_forward w 50)

omit htaken in
theorem mock_succeeds {φ : Face → Prop} {mem mem' : HostMemory}
    (hmem : mem.write kMockCommandGuestAddr mockCommand = some mem') :
    Succeeds final writeMockNvmeCommand (Shows b s g time answers final φ mem)
      (Shows b s g time answers final φ mem') := by
  intro d hd _
  rw [writeMockNvmeCommand, hd.memory, hmem]
  exact ⟨rfl, ⟨hd.reached.greeted, hd.reached.silent, hd.reached.calm, hd.reached.left, hd.reached.clean,
    hd.reached.stream, hd.reached.idle⟩, hd.face, rfl⟩

end Steps

/-! ## The doorbell and what follows it -/

section Service

variable {b : Backend σ} {s : σ} {g : TransactionIdGenerator} {time : UInt64 → UInt64} {answers : List (Option Message)}
  {final : List Message} {w : Net}

/-- The client has the answer to its doorbell, and what the backend asks for is still to be read. -/
structure Rung (b : Backend σ) (s : σ) (g : TransactionIdGenerator) (time : UInt64 → UInt64)
    (answers : List (Option Message)) (final : List Message) (mem : HostMemory) (asked more : List Out) (d : Demo) :
    Prop where
  silent  : ∀ m ∈ d.sent, m.isDmaRsp = false
  asks    : Asks kAsqBase kAcqBase answers asked
  awaits  : awaited g (backendRun b s answers final).2.log = awaited g (asked ++ more)
  clean   : ∀ t ∈ d.rx, t.Clean
  stream  : streamOf d.rx = bytesOf (onWire time g (asked ++ more))
  memory  : d.memory = mem

theorem bell_succeeds (htaken : ∀ i m, final[i]? = some m → takesAll m.bytes.length (w.tx i) = true)
    {mem : HostMemory} :
    Succeeds final (ringDoorbell w)
      (Shows b s g time answers final (fun f => f.asq = kAsqBase ∧ f.acq = kAcqBase ∧ f.ready = true) mem)
      (fun d => ∃ asked more, Rung b s g time answers final mem asked more d) := by
  intro d hd hpre
  obtain ⟨hok, hop⟩ := write32_ask w kSubmissionQueue0Doorbell 1 d
  unfold ringDoorbell at hpre ⊢
  rw [hop] at hpre
  rw [hok, hop]
  obtain ⟨hdr, asked, hgood, hlog, hasks⟩ := b.bell _ d.txnGen.nextId (w.now d.sent.length)
    (backendRun b s answers d.sent).2 hd.reached.idle
  obtain ⟨hgot, hclean, more, hmore, hstream⟩ := hd.reached.answered asked (by decide) hlog hgood.wire htaken hpre
  rw [hd.face.1, hd.face.2.1, hd.reached.left] at hasks
  refine ⟨?_, asked, more, ⟨?_, hasks, ?_, hclean, hstream, (ask_exchange w d _ _ _ _).2.2.trans hd.memory⟩⟩
  · rw [hgot]
    exact accepts_good hgood
  · intro m hm
    rw [ask_sent] at hm
    rcases List.mem_append.1 hm with hm | hm
    · exact hd.reached.silent m hm
    · rw [List.mem_singleton.1 hm]
      exact isDmaRsp_demoRequest _ _ _ _ _ (by decide)
  · rw [hmore, awaited_calm hd.reached.calm]
    rfl

def requestMessage (time : UInt64 → UInt64) (g : TransactionIdGenerator) (t : MessageType) (a : UInt64) (p : List UInt8)
    (n : UInt32) : Message :=
  ⟨makeHeader t g.nextId a 0 .success (time g.nextId) (UInt32.ofNat p.length) kFlagNone n, p⟩

theorem read_request {rx : List RxTurn} (hc : ∀ t ∈ rx, t.Clean) {t : MessageType} {a : UInt64} {p : List UInt8}
    {n : UInt32} {os : List Out} (hp : p.length ≤ 64)
    (hs : streamOf rx = bytesOf (onWire time g (.request t a p n :: os))) :
    (readMessage rx).message = .ok (requestMessage time g t a p n) ∧
      streamOf (readMessage rx).rest = bytesOf (onWire time g.next.2 os) ∧ ∀ t ∈ (readMessage rx).rest, t.Clean := by
  rw [onWire, bytesOf_cons] at hs
  exact readMessage_clean hc (wellFormed_makeHeader _ _ _ _ _ _ _ _ hp) hs

theorem serviceLoop_goOn (now : Nat → UInt64) {n : Nat} {rx : List RxTurn} {v : Vars} {m : Message}
    (hv : v.sawAll = false) (hm : (readMessage rx).message = .ok m) (hgo : (v.service m (now n)).goOn = true) :
    let b := v.service m (now n)
    let l := serviceLoop now n (readMessage rx).rest b.vars
    serviceLoop now (n + 1) rx v = { l with served := ⟨m, v.memory, b.reply, b.vars.memory⟩ :: l.served } := by
  intro b l
  rw [serviceLoop, if_neg (by rw [hv]; exact Bool.false_ne_true)]
  dsimp only
  rw [hm]
  dsimp only
  rw [if_pos hgo]

theorem service_dmaRead (v : Vars) {m : Message} {data : List UInt8} (now : UInt64)
    (ht : m.header.isType .dmaReadReq = true) (hlen : m.header.transferLen ≠ 0)
    (hread : v.memory.read m.header.address m.header.transferLen = some data) :
    v.service m now = ⟨{ v with sawDmaRead := true },
      some (sendDmaReadResponse m.header.txnId m.header.address data .success now), true⟩ := by
  rw [Vars.service, if_pos ht]
  unfold Vars.dmaRead
  dsimp only
  rw [if_neg hlen, hread]

theorem service_dmaWrite (v : Vars) {m : Message} {memory : HostMemory} (now : UInt64)
    (ht : m.header.isType .dmaWriteReq = true)
    (hwrite : v.memory.write m.header.address m.payload = some memory) :
    v.service m now = ⟨{ v with sawDmaWrite := true, memory, completionBytes := m.payload },
      some (sendDmaWriteResponse m.header.txnId m.header.address .success now), true⟩ := by
  have hr : ¬ m.header.isType .dmaReadReq = true := by
    rw [Header.isType_of_ne ht (by decide)]
    exact Bool.false_ne_true
  rw [Vars.service, if_neg hr, if_pos ht]
  unfold Vars.dmaWrite
  dsimp only
  rw [hwrite]

theorem service_msix (v : Vars) {m : Message} (now : UInt64) (ht : m.header.isType .msiX = true) :
    v.service m now = ⟨{ v with sawMsix := true }, none, true⟩ := by
  have hr : ¬ m.header.isType .dmaReadReq = true := by
    rw [Header.isType_of_ne ht (by decide)]
    exact Bool.false_ne_true
  have hw : ¬ m.header.isType .dmaWriteReq = true := by
    rw [Header.isType_of_ne ht (by decide)]
    exact Bool.false_ne_true
  rw [Vars.service, if_neg hr, if_neg hw, if_pos ht]

theorem acked_of_some {i : Nat} {m : Message} (h : answers.getD i none = some m)
    (hm : m.header.isStatus .success = true) : acked answers i = true := by
  rw [acked, h]
  exact hm

theorem sendDmaReadResponse_spec (txnId addr : UInt64) (data : List UInt8) (now : UInt64) :
    let m := sendDmaReadResponse txnId addr data .success now
    m.isDmaRsp = true ∧ m.header.txnId = txnId ∧ m.header.isStatus .success = true := by
  intro m
  have ht : m.header.isType .dmaReadRsp = true := isType_makeHeader ..
  refine ⟨?_, rfl, isStatus_makeHeader ..⟩
  rw [Message.isDmaRsp, ht, Bool.true_or]

theorem sendDmaWriteResponse_spec (txnId addr now : UInt64) :
    let m := sendDmaWriteResponse txnId addr .success now
    m.isDmaRsp = true ∧ m.header.txnId = txnId ∧ m.header.isStatus .success = true := by
  intro m
  have ht : m.header.isType .dmaWriteRsp = true := isType_makeHeader ..
  refine ⟨?_, rfl, isStatus_makeHeader ..⟩
  rw [Message.isDmaRsp, ht, Bool.or_true]

/-- The answers, matched to the requests by their identifiers. -/
def Matches (g : TransactionIdGenerator) (answers : List (Option Message)) (final : List Message) (log : List Out) :
    Prop :=
  ∀ k id, (awaited g log)[k]? = some id → answers.getD k none = answerTo final id

theorem Rung.first {mem : HostMemory} {more a : List Out} {d : Demo} {m : Message} {post : List Message}
    (h : Rung b s g time answers final mem (readCommand kAsqBase :: a) more d)
    (hmatch : Matches g answers final (backendRun b s answers final).2.log) (hsent : d.sent ++ m :: post = final)
    (hm : m.isDmaRsp = true) (hid : m.header.txnId = g.nextId) : answers.getD 0 none = some m := by
  rw [hmatch 0 g.nextId (by rw [h.awaits]; rfl)]
  exact answerTo_eq hsent (fun m' hm' => by rw [h.silent m' hm']; rfl) hm hid

theorem Rung.second {mem : HostMemory} {more a : List Out} {d : Demo} {m m' : Message} {post : List Message}
    (h : Rung b s g time answers final mem (readCommand kAsqBase :: writeCompletion kAcqBase :: a) more d)
    (hmatch : Matches g answers final (backendRun b s answers final).2.log) (hsent : d.sent ++ m :: m' :: post = final)
    (hid : m.header.txnId = g.nextId) (hm' : m'.isDmaRsp = true) (hid' : m'.header.txnId = g.next.2.nextId) :
    answers.getD 1 none = some m' := by
  have hne : g.nextId ≠ g.next.2.nextId := by
    show g.nextId ≠ g.nextId + 1
    intro he
    have := congrArg UInt64.toNat he
    rw [UInt64.toNat_add] at this
    have hlt := g.nextId.toNat_lt
    change g.nextId.toNat = (g.nextId.toNat + 1) % 2 ^ 64 at this
    omega
  rw [hmatch 1 g.next.2.nextId (by rw [h.awaits]; rfl)]
  have hsplit : (d.sent ++ [m]) ++ m' :: post = final := by rw [← hsent, List.append_assoc]; rfl
  refine answerTo_eq hsplit (fun x hx => ?_) hm' hid'
  rcases List.mem_append.1 hx with hx | hx
  · rw [h.silent x hx]
    rfl
  · rw [List.mem_singleton.1 hx, hid, beq_eq_false_iff_ne.2 hne, Bool.and_false]

/-- **The three turns of the service loop.** -/
theorem service_turns {mem mem' : HostMemory} {data : List UInt8} {more asked : List Out} {d : Demo}
    (h : Rung b s g time answers final mem asked more d)
    (hmatch : Matches g answers final (backendRun b s answers final).2.log) (hpre : (serviceRtl w d).2.sent <+: final)
    (hread : mem.read kAsqBase 64 = some data) (hwrite : mem.write kAcqBase mockCompletion = some mem') :
    (serviceRtl w d).1 = true ∧ (serviceRtl w d).2.memory = mem' ∧
      ∃ now, answers.getD 0 none = some (sendDmaReadResponse g.nextId kAsqBase data .success now) := by
  let now : Nat → UInt64 := fun n => w.now (d.sent.length + (2 - n))
  let v0 : Vars := { memory := mem }
  let v1 : Vars := { v0 with sawDmaRead := true }
  let v2 : Vars := { v1 with sawDmaWrite := true, memory := mem', completionBytes := mockCompletion }
  let m1 := requestMessage time g .dmaReadReq kAsqBase [] 64
  let m2 := requestMessage time g.next.2 .dmaWriteReq kAcqBase mockCompletion 16
  let m3 := requestMessage time g.next.2.next.2 .msiX 0 [] 0
  let r1 := sendDmaReadResponse g.nextId kAsqBase data .success (now 2)
  let r2 := sendDmaWriteResponse g.next.2.nextId kAcqBase .success (now 1)
  obtain ⟨hr1, hid1, hok1⟩ := sendDmaReadResponse_spec g.nextId kAsqBase data (now 2)
  obtain ⟨hr2, hid2, hok2⟩ := sendDmaWriteResponse_spec g.next.2.nextId kAcqBase (now 1)
  have hs1 : v0.service m1 (now 2) = ⟨v1, some r1, true⟩ :=
    service_dmaRead v0 (now 2) (isType_makeHeader ..) (by decide : (64 : UInt32) ≠ 0) hread
  have hs2 : v1.service m2 (now 1) = ⟨v2, some r2, true⟩ :=
    service_dmaWrite v1 (now 1) (isType_makeHeader ..) hwrite
  have hs3 : v2.service m3 (now 0) = ⟨{ v2 with sawMsix := true }, none, true⟩ :=
    service_msix v2 (now 0) (isType_makeHeader ..)
  have hsent : (serviceRtl w d).2.sent = d.sent ++ (serviceLoop now 3 d.rx v0).served.filterMap (·.reply) := by
    simp only [serviceRtl, serviceRtlInitiatedTransactions, h.memory]
    rfl
  rw [hsent] at hpre
  -- the read
  obtain ⟨a1, rfl⟩ := h.asks.read
  obtain ⟨hm1, hstream1, hclean1⟩ := read_request h.clean (by decide) h.stream
  have hl1 := serviceLoop_goOn (n := 2) (v := v0) now rfl hm1 (by rw [show v0.service _ (now 2) = _ from hs1])
  rw [show v0.service _ (now 2) = _ from hs1] at hl1
  dsimp only at hl1
  rw [hl1] at hpre
  obtain ⟨post, hpost⟩ := hpre
  simp only [List.filterMap_cons, List.append_assoc, List.cons_append] at hpost
  have hans1 := h.first hmatch hpost hr1 hid1
  -- the write
  obtain ⟨a2, ha2⟩ := h.asks.write (acked_of_some hans1 hok1)
  obtain rfl : a1 = writeCompletion kAcqBase :: a2 := (List.cons.inj ha2).2.symm
  obtain ⟨hm2, hstream2, hclean2⟩ := read_request hclean1 (by decide) hstream1
  have hl2 := serviceLoop_goOn (n := 1) (v := v1) now rfl hm2 (by rw [show v1.service _ (now 1) = _ from hs2])
  rw [show v1.service _ (now 1) = _ from hs2] at hl2
  dsimp only at hl2
  rw [hl2] at hpost
  simp only [List.filterMap_cons, List.cons_append] at hpost
  have hans2 := h.second hmatch hpost hid1 hr2 hid2
  -- the interrupt
  obtain rfl : a2 = [interrupt] := by
    have hall := h.asks.interrupt (acked_of_some hans1 hok1) (acked_of_some hans2 hok2)
    exact (List.cons.inj (List.cons.inj hall).2).2
  obtain ⟨hm3, -, -⟩ := read_request hclean2 (by decide) hstream2
  have hl3 := serviceLoop_goOn (n := 0) (v := v2) now rfl hm3 (by rw [show v2.service _ (now 0) = _ from hs3])
  rw [show v2.service _ (now 0) = _ from hs3] at hl3
  dsimp only at hl3
  have hloop : ∃ served, serviceLoop now 3 d.rx v0 = { vars := { v2 with sawMsix := true }, served } := by
    rw [hl1, hl2, hl3]
    exact ⟨_, rfl⟩
  obtain ⟨served, hloop⟩ := hloop
  have hall : (mockCompletion.length == 16 &&
      (List.range 16).all (fun i => mockCompletion.getD i 0 == 0xc0 + UInt8.ofNat i)) = true := by decide
  simp only [serviceRtl, serviceRtlInitiatedTransactions, h.memory]
  rw [show serviceLoop _ 3 d.rx { memory := mem } = _ from hloop]
  exact ⟨hall, rfl, now 2, hans1⟩

end Service

/-! ## The run -/

variable {b : Backend σ} {s : σ} {g : TransactionIdGenerator} {time : UInt64 → UInt64} {answers : List (Option Message)}
  {w : Net} {rx : List RxTurn}

theorem wellFormed_helloAck (m : Message) : (helloAck m).WellFormed :=
  wellFormed_makeHeader _ _ _ _ _ _ _ _ (by decide : ([] : List UInt8).length ≤ 64)

theorem hello_succeeds (h : Joined w rx b s g time answers) (hidle : b.idle s) :
    Succeeds (clientSent w rx) (doHello w) (fun d => d = { rx })
      (Shows b s g time answers (clientSent w rx) (fun _ => True) initDeterministicPattern) := by
  intro d hd hpre
  subst hd
  simp only [doHello] at hpre ⊢
  obtain ⟨hfst, hrx, hmem⟩ := ask_exchange w { rx } .hello 0 0 []
  have hsent : (Demo.ask w { rx } .hello 0 0 []).2.sent = [demoRequest w { rx } .hello 0 0 []] := ask_sent w { rx } ..
  obtain ⟨hello, hhead, hstream⟩ := h.stream
  have hhello : hello = demoRequest w { rx } .hello 0 0 [] := by
    obtain ⟨post, hpost⟩ := hpre
    rw [← hpost, hsent] at hhead
    exact (Option.some.inj hhead).symm
  have htx : takesAll (demoRequest w { rx } .hello 0 0 []).bytes.length (w.tx 0) = true :=
    h.taken 0 _ (Log.prefix_getElem? hpre (by rw [hsent]; rfl))
  rw [bytesOf_cons] at hstream
  obtain ⟨hgot, hrest, hclean⟩ := answer_healthy _ ⟨.hello, 0, 0, [], w.now 0⟩ htx h.clean (wellFormed_helloAck hello)
    hstream
  have hrun : backendRun b s answers (Demo.ask w { rx } .hello 0 0 []).2.sent = (s, ⟨answers, []⟩) := by
    rw [hsent]
    rfl
  refine ⟨?_, ⟨?_, ?_, ?_, ?_, ?_, ⟨(backendRun b s answers (clientSent w rx)).2.log, ?_, ?_⟩, ?_⟩, trivial, hmem⟩
  · rw [show (Demo.ask w { rx } .hello 0 0 []).1 = _ from hfst.trans hgot]
    exact isType_makeHeader ..
  · rw [hsent]
    exact List.cons_ne_nil _ _
  · intro m hm
    rw [hsent] at hm
    rw [List.mem_singleton.1 hm]
    exact isDmaRsp_demoRequest _ _ _ _ _ (by decide)
  · rw [hrun]
    intro o ho
    cases ho
  · rw [hrun]
  · rw [hrx]
    exact hclean
  · rw [hrun]
    rfl
  · rw [hrx]
    exact hrest
  · rw [hrun]
    exact hidle

def mockMemory : HostMemory where
  size := kMemorySize
  data := Mem.write initDeterministicPattern.data kMockCommandGuestAddr.toBitVec mockCommand

def demoMemory : HostMemory where
  size := kMemorySize
  data := Mem.write mockMemory.data kAcqBase.toBitVec mockCompletion

/-- **The demo passes against every backend**: whatever its state and however the bytes arrive, if the connection holds
and nothing times out then `RunDemo` returns true, and the completion is in the host's memory.  But the command that the
backend gets is what was at the base of the submission queue from the start, not the one that the demo wrote. -/
theorem demo_passes (b : Backend σ) (hidle : b.idle s) (h : Joined w rx b s g time answers) :
    (runDemo w { rx }).1 = true ∧ (runDemo w { rx }).2.memory = demoMemory ∧
      ∃ hdr, answers.getD 0 none = some ⟨hdr, Mem.read initDeterministicPattern.data kAsqBase.toBitVec 64⟩ := by
  have hmock : initDeterministicPattern.write kMockCommandGuestAddr mockCommand = some mockMemory := by
    rw [HostMemory.write, if_pos (by decide)]
    rfl
  have hread : mockMemory.read kAsqBase 64 = some (Mem.read initDeterministicPattern.data kAsqBase.toBitVec 64) := by
    rw [HostMemory.read, if_pos (by decide)]
    exact congrArg some (Mem.read_write_apart _ (Mem.apart_of_le (by decide) (by decide)))
  have hwrite : mockMemory.write kAcqBase mockCompletion = some demoMemory := by
    rw [HostMemory.write, if_pos (by decide)]
    rfl
  have hservice : Succeeds (clientSent w rx) (serviceRtl w)
      (fun d => ∃ asked more, Rung b s g time answers (clientSent w rx) mockMemory asked more d)
      (fun d => d.memory = demoMemory ∧
        ∃ hdr, answers.getD 0 none = some ⟨hdr, Mem.read initDeterministicPattern.data kAsqBase.toBitVec 64⟩) := by
    rintro d ⟨asked, more, hd⟩ hpre
    obtain ⟨hok, hmem, now, hans⟩ := service_turns hd h.answers hpre hread hwrite
    exact ⟨hok, hmem, _, hans⟩
  have hbell := (bell_succeeds h.taken).andThen hservice (service_forward w)
  have hforward := Forward.andThen (write32_forward w kSubmissionQueue0Doorbell 1) (service_forward w)
  have hcommand := (mock_succeeds hmock).andThen hbell hforward
  have hforward := Forward.andThen mock_forward hforward
  have henable := (enable_succeeds h.taken).andThen hcommand hforward
  have hforward := Forward.andThen (enable_forward w) hforward
  have hqueues := (configure_succeeds h.taken).andThen henable hforward
  have hforward := Forward.andThen (configure_forward w) hforward
  have hreset := (reset_succeeds h.taken).andThen hqueues hforward
  have hforward := Forward.andThen (reset_forward w) hforward
  have hrun := (hello_succeeds h hidle).andThen hreset hforward { rx } rfl
  have hup : ¬ (!connect w) = true := by
    rw [h.up]
    exact Bool.false_ne_true
  have hsent : clientSent w rx = (runDemo w { rx }).2.sent := rfl
  unfold runDemo at hsent ⊢
  rw [if_neg hup] at hsent ⊢
  dsimp only at hsent hrun ⊢
  generalize andThen (doHello w { rx }) _ = r at hsent hrun ⊢
  by_cases hr : r.1 = true
  · rw [if_pos hr] at hsent ⊢
    obtain ⟨-, hmem, hans⟩ := hrun (by rw [hsent]; exact List.prefix_append ..)
    exact ⟨rfl, hmem, hans⟩
  · rw [if_neg hr] at hsent ⊢
    obtain ⟨hok, -⟩ := hrun (hsent ▸ List.prefix_rfl)
    exact absurd hok hr

/-- The software model, fresh. -/
theorem demo_passes_software :
    ∃ (w : Net) (rx : List RxTurn) (s : Software) (answers : List (Option Message)),
      Joined w rx software s {} (fun _ => 0) answers ∧ (runDemo w { rx }).1 = true ∧
        (runDemo w { rx }).2.memory = demoMemory ∧
        ∃ hdr, answers.getD 0 none = some ⟨hdr, Mem.read initDeterministicPattern.data kAsqBase.toBitVec 64⟩ := by
  let w : Net := { first := .ok, tx := fun _ => [⟨polledReady, .wrote 200⟩], now := fun _ => 0 }
  let response (t : MessageType) (id addr time : UInt64) (p : List UInt8) : Message :=
    ⟨makeHeader t id addr 0 .success time (UInt32.ofNat p.length) kFlagIsResponse, p⟩
  let ms : List Message := [response .helloAck 1 0 0 [], response .resetRsp 2 0 115 [],
    response .mmioWriteRsp 3 0x28 130 [], response .mmioWriteRsp 4 0x30 145 [], response .mmioWriteRsp 5 0x24 160 [],
    response .mmioWriteRsp 6 0x14 175 [], response .mmioReadRsp 7 0x1c 190 [1, 0, 0, 0],
    response .mmioWriteRsp 8 0x1000 205 [],
    requestMessage (fun _ => 0) {} .dmaReadReq kAsqBase [] 64,
    requestMessage (fun _ => 0) ⟨2⟩ .dmaWriteReq kAcqBase mockCompletion 16,
    requestMessage (fun _ => 0) ⟨3⟩ .msiX 0 [] 0]
  let rx : List RxTurn := [⟨polledReady, .data (bytesOf ms)⟩]
  let answers : List (Option Message) := [answerTo (clientSent w rx) 1, answerTo (clientSent w rx) 2]
  have hpair : ∀ (f : UInt64 → Option Message) (k : Nat) (id : UInt64), [1, 2][k]? = some id →
      [f 1, f 2].getD k none = f id := by
    rintro f (_ | _ | k) id hk
    · cases hk
      rfl
    · cases hk
      rfl
    · cases hk
  have hjoined : Joined w rx software {} {} (fun _ => 0) answers := by
    obtain ⟨hall, hhead, hstream, hids⟩ :
        (∀ m ∈ clientSent w rx, takesAll m.bytes.length [⟨polledReady, .wrote 200⟩] = true) ∧
        (clientSent w rx).head? = some (Call.request ⟨.hello, 0, 0, [], 0⟩ 1) ∧
        ms.tail = onWire (fun _ => 0) {} (backendRun software {} answers (clientSent w rx)).2.log ∧
        awaited {} (backendRun software {} answers (clientSent w rx)).2.log = [1, 2] := by decide +kernel
    obtain ⟨x, bs, hbs⟩ := List.exists_cons_of_ne_nil (show bytesOf ms ≠ [] by decide +kernel)
    refine ⟨rfl, fun i m hm => hall m (List.mem_of_getElem? hm), fun t ht => ?_, ⟨_, hhead, ?_⟩, fun k id hk => ?_⟩
    · rw [List.mem_singleton.1 ht]
      exact ⟨rfl, .inr (.inr ⟨x, bs, congrArg RecvRet.data hbs⟩)⟩
    · rw [← hstream]
      exact List.append_nil _
    · rw [hids] at hk
      exact hpair _ k id hk
  have hidle : software.idle ({} : Software) := rfl
  exact ⟨w, rx, {}, answers, hjoined, demo_passes software hidle hjoined⟩

end Endpoint
end Vip
