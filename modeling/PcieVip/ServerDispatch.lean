import PcieVip.PendingTable
import PcieVip.Server
/-!
# ServerDispatch — what the server delivers is a prefix of what the client sent

`Faithful` relates what was dispatched from one connection to the bytes that arrived on it.  The invariant `Dispatch`
carries it through every step of the I/O thread; the other two threads touch nothing it reads (`rtlStep_frame`,
`stopStep_frame`).  Past that, a step of the I/O thread reads a message, delivers one, or does neither (`ioStep_cases`):
`Routing` follows the messages on to the queue and the consumer, `Recorded` to the pending table.
-/
namespace Vip
namespace Ics

open Run (run history)

def receivedOn (c : Nat) (rs : List Received) : List Message := (rs.filter (fun r => r.conn == c)).map (·.message)

def ackOn (c : Nat) (wire : List WireByte) : List UInt8 :=
  (wire.filter (fun w => w.conn == c && w.cause == .helloAck)).map (·.byte)

/-- What may have been dispatched from a connection on which `rx` arrives and `ack` was written by the handshake: a
front part of the parse after its first message; nothing before that message was a HELLO answered in full; nothing
after a SHUTDOWN. -/
structure Faithful (rx : List RxTurn) (dispatched : List Message) (ack : List UInt8) : Prop where
  parsed  : dispatched <+: (parseStream (streamOf rx)).tail
  greeted : dispatched ≠ [] → ∃ hello, (parseStream (streamOf rx)).head? = some hello ∧
    hello.header.isType .hello = true ∧ ack = (helloAck hello).bytes
  ended   : ∀ m ∈ dispatched.dropLast, m.header.isType .shutdown = false

/-- A connection in normal operation: `left` is what follows the messages dispatched so far. -/
structure Tracked (rx left : List RxTurn) (dispatched : List Message) (ack : List UInt8) : Prop where
  greeting : ∃ hello, parseStream (streamOf rx) = hello :: (dispatched ++ parseStream (streamOf left)) ∧
    hello.header.isType .hello = true ∧ ack = (helloAck hello).bytes
  open_    : ∀ m ∈ dispatched, m.header.isType .shutdown = false

/-! ## Lists -/

theorem receivedOn_append (c : Nat) (rs : List Received) (r : Received) :
    receivedOn c (rs ++ [r]) = receivedOn c rs ++ if r.conn = c then [r.message] else [] := by
  unfold receivedOn
  rw [List.filter_append, List.map_append]
  by_cases h : r.conn = c <;> simp [h]

theorem ackOn_append_ack (c conn : Nat) (wire : List WireByte) (bs : List UInt8) :
    ackOn c (wire ++ bs.map (fun b => ⟨conn, .helloAck, b⟩)) = ackOn c wire ++ if conn = c then bs else [] := by
  unfold ackOn
  rw [List.filter_append, List.map_append]
  congr 1
  by_cases h : conn = c
  · simp [h, List.filter_map, Function.comp_def]
  · simp [h, List.filter_map, Function.comp_def]

theorem ackOn_append_other (c conn : Nat) (cause : Cause) (hc : cause ≠ .helloAck) (wire : List WireByte)
    (bs : List UInt8) : ackOn c (wire ++ bs.map (fun b => ⟨conn, cause, b⟩)) = ackOn c wire := by
  unfold ackOn
  rw [List.filter_append, List.map_append]
  simp [hc, List.filter_map, Function.comp_def]

/-! ## One connection -/

theorem Faithful.nil (rx : List RxTurn) (ack : List UInt8) : Faithful rx [] ack :=
  ⟨List.nil_prefix, fun h => absurd rfl h, fun _ hm => by cases hm⟩

theorem parseStream_of_read {rx : List RxTurn} {m : Message} (h : (readMessage rx).message = .ok m) :
    parseStream (streamOf rx) = m :: parseStream (streamOf (readMessage rx).rest) :=
  parseStream_of_some (readMessage_parse h).1

theorem Tracked.faithful_snoc {rx left rest : List RxTurn} {dispatched : List Message} {ack : List UInt8} {m : Message}
    (h : Tracked rx left dispatched ack)
    (hm : parseStream (streamOf left) = m :: parseStream (streamOf rest)) :
    Faithful rx (dispatched ++ [m]) ack := by
  obtain ⟨hello, hp, ht, ha⟩ := h.greeting
  refine ⟨?_, fun _ => ⟨hello, by rw [hp]; rfl, ht, ha⟩, fun m' hm' => ?_⟩
  · rw [hp, hm, List.tail_cons]
    exact ⟨parseStream (streamOf rest), by rw [List.append_assoc]; rfl⟩
  · rw [List.dropLast_concat] at hm'
    exact h.open_ m' hm'

theorem Tracked.snoc {rx left rest : List RxTurn} {dispatched : List Message} {ack : List UInt8} {m : Message}
    (h : Tracked rx left dispatched ack)
    (hm : parseStream (streamOf left) = m :: parseStream (streamOf rest))
    (hs : m.header.isType .shutdown = false) : Tracked rx rest (dispatched ++ [m]) ack := by
  obtain ⟨hello, hp, ht, ha⟩ := h.greeting
  refine ⟨⟨hello, ?_, ht, ha⟩, fun m' hm' => ?_⟩
  · rw [hp, hm, List.append_assoc]; rfl
  · rcases List.mem_append.1 hm' with hm' | hm'
    · exact h.open_ m' hm'
    · rw [List.mem_singleton.1 hm']; exact hs

/-! ## The invariant -/

/-- What is known of the current connection at each place of `IoThreadMain`. -/
def IoAt (hasClient : Bool) (rx left : List RxTurn) (dispatched : List Message) (ack : List UInt8) : IoPc → Prop
  | .top           => hasClient = true → Tracked rx left dispatched ack
  | .accepting     => hasClient = false
  | .hello         => hasClient = false ∧ left = rx ∧ dispatched = [] ∧ ack = []
  | .helloRead m   => hasClient = false ∧ parseStream (streamOf rx) = m :: parseStream (streamOf left) ∧
      dispatched = [] ∧ ack = []
  | .acking m todo => hasClient = false ∧ parseStream (streamOf rx) = m :: parseStream (streamOf left) ∧
      dispatched = [] ∧ m.header.isType .hello = true ∧ ack ++ todo = (helloAck m).bytes
  | .ready         => Tracked rx left dispatched ack
  | .waiting       => Tracked rx left dispatched ack
  | .reading       => Tracked rx left dispatched ack
  | .dispatching m => ∃ before, Tracked rx before dispatched ack ∧
      parseStream (streamOf before) = m :: parseStream (streamOf left)
  | .closing drop  => drop = false → hasClient = false
  | .dropping      => True
  | .exited        => True

structure Dispatch (s : State) : Prop where
  faithful : ∀ c, Faithful (s.script c) (receivedOn c s.dispatched) (ackOn c s.wire)
  fresh    : ∀ c, s.conn < c → receivedOn c s.dispatched = [] ∧ ackOn c s.wire = []
  at_      : IoAt s.hasClient (s.script s.conn) s.left (receivedOn s.conn s.dispatched) (ackOn s.conn s.wire) s.io

theorem dispatch_init : Dispatch State.init :=
  ⟨fun _ => Faithful.nil _ _, fun _ _ => ⟨rfl, rfl⟩, fun h => by cases h⟩

theorem Dispatch.record {s : State} (hi : Dispatch s) {m : Message}
    (hf : Faithful (s.script s.conn) (receivedOn s.conn s.dispatched ++ [m]) (ackOn s.conn s.wire)) :
    (∀ c, Faithful (s.script c) (receivedOn c (s.dispatched ++ [⟨s.conn, m⟩])) (ackOn c s.wire)) ∧
      (∀ c, s.conn < c → receivedOn c (s.dispatched ++ [⟨s.conn, m⟩]) = [] ∧ ackOn c s.wire = []) ∧
      receivedOn s.conn (s.dispatched ++ [⟨s.conn, m⟩]) = receivedOn s.conn s.dispatched ++ [m] := by
  refine ⟨fun c => ?_, fun c hc => ?_, by rw [receivedOn_append, if_pos rfl]⟩
  · rw [receivedOn_append]
    by_cases h : s.conn = c
    · subst h; rw [if_pos rfl]; exact hf
    · rw [if_neg h, List.append_nil]; exact hi.faithful c
  · rw [receivedOn_append, if_neg (Nat.ne_of_lt hc), List.append_nil]
    exact hi.fresh c hc

theorem Dispatch.accept {s : State} (hi : Dispatch s) (hc : s.hasClient = false) (rx : List RxTurn) :
    Dispatch { s with isOpen := true, io := .hello, conn := s.conn + 1, left := rx
                      script := Function.update s.script (s.conn + 1) rx } := by
  have hnew := hi.fresh (s.conn + 1) (Nat.lt_succ_self _)
  refine ⟨fun c => ?_, fun c hc => hi.fresh c (Nat.lt_of_succ_lt hc), ?_⟩
  · by_cases hc : c = s.conn + 1
    · subst hc; dsimp only; rw [hnew.1]; exact Faithful.nil _ _
    · dsimp only; rw [Function.update_of_ne hc]; exact hi.faithful c
  · exact ⟨hc, by dsimp only; rw [Function.update_self], hnew.1, hnew.2⟩

theorem Dispatch.ack {s : State} (hi : Dispatch s) {m : Message} {todo w : List UInt8} (hpc : s.io = .acking m todo)
    (hw : w <+: todo) : Dispatch { s.write .helloAck w with io := .acking m (todo.drop w.length) } := by
  have hat := hi.at_
  rw [hpc] at hat
  obtain ⟨hc, hp, hd, ht, ha⟩ := hat
  obtain ⟨rest, rfl⟩ := hw
  refine ⟨fun c => ?_, fun c hlt => ?_, hc, hp, hd, ht, ?_⟩
  · by_cases hcc : c = s.conn
    · subst hcc
      dsimp only [State.write]
      rw [hd]
      exact Faithful.nil _ _
    · dsimp only [State.write]
      rw [ackOn_append_ack, if_neg (Ne.symm hcc), List.append_nil]
      exact hi.faithful c
  · dsimp only [State.write] at hlt ⊢
    rw [ackOn_append_ack, if_neg (Nat.ne_of_lt hlt), List.append_nil]
    exact hi.fresh c hlt
  · dsimp only [State.write]
    rw [ackOn_append_ack, if_pos rfl, List.drop_left, List.append_assoc, ha]

theorem Dispatch.deliver {s : State} (hi : Dispatch s) {m : Message} (hpc : s.io = .dispatching m) :
    Dispatch { (s.record m).push m with io := .closing true } ∧
      (m.header.isType .shutdown = false → Dispatch { (s.record m).dispatchIncoming m with io := .top }) := by
  have hat := hi.at_
  rw [hpc] at hat
  obtain ⟨before, htr, hm⟩ := hat
  obtain ⟨hf, hfr, heq⟩ := hi.record (htr.faithful_snoc hm)
  refine ⟨⟨hf, hfr, fun hd => by cases hd⟩, fun hs => ?_⟩
  have hnext := htr.snoc hm hs
  unfold State.dispatchIncoming
  split
  · exact ⟨hf, hfr, fun _ => by dsimp only [State.complete, State.record]; rw [heq]; exact hnext⟩
  · exact ⟨hf, hfr, fun _ => by dsimp only [State.push, State.record]; rw [heq]; exact hnext⟩

/-- **Every step of the I/O thread keeps the invariant.** -/
theorem ioStep_dispatch {s s' : State} {e : IoEvent} (hi : Dispatch s) (h : ioStep s e = some s') : Dispatch s' := by
  have hat := hi.at_
  unfold ioStep at h
  split at h
  · -- top
    rename_i hpc
    rw [hpc] at hat
    cases h
    refine ⟨hi.faithful, hi.fresh, ?_⟩
    dsimp only
    split
    · cases hc : s.hasClient with
      | false => exact rfl
      | true => exact hat hc
    · trivial
  · -- no connection came
    rename_i hpc
    rw [hpc] at hat
    cases h
    exact ⟨hi.faithful, hi.fresh, fun hc => by rw [show s.hasClient = false from hat] at hc; cases hc⟩
  · -- a new connection
    rename_i rx hpc
    rw [hpc] at hat
    cases h
    exact hi.accept hat rx
  · -- the first message
    rename_i hpc
    rw [hpc] at hat
    obtain ⟨hc, hl, hd, ha⟩ := hat
    dsimp only at h
    split at h
    · cases h; exact ⟨hi.faithful, hi.fresh, fun _ => hc⟩
    · rename_i m hm
      cases h
      exact ⟨hi.faithful, hi.fresh, hc, by rw [← hl]; exact parseStream_of_read hm, hd, ha⟩
  · -- HandleHello
    rename_i m hpc
    rw [hpc] at hat
    obtain ⟨hc, hp, hd, ha⟩ := hat
    split at h
    · cases h; exact ⟨hi.faithful, hi.fresh, fun _ => hc⟩
    · rename_i ht
      split at h
      · cases h
      · cases h
        exact ⟨hi.faithful, hi.fresh, hc, hp, hd, by simpa using ht, by rw [ha, List.nil_append]⟩
  · -- the acknowledgement is out
    rename_i m _ hpc
    rw [hpc] at hat
    obtain ⟨hc, hp, hd, ht, ha⟩ := hat
    cases h
    refine ⟨hi.faithful, hi.fresh, ⟨m, ?_, ht, by rw [← ha, List.append_nil]⟩, ?_⟩
    · rw [hp, hd]; rfl
    · intro m' hm'; rw [hd] at hm'; cases hm'
  · -- a chunk of the acknowledgement
    rename_i m b bs t hpc
    split at h
    · rename_i w hw
      cases h
      refine hi.ack hpc ?_
      unfold State.sendTurn at hw
      split at hw
      · exact sendStep_wrote hw
      · cases hw
    · rw [hpc] at hat
      cases h
      exact ⟨hi.faithful, hi.fresh, fun _ => hat.1⟩
  · -- has_client_ is set
    rename_i hpc
    rw [hpc] at hat
    cases h
    exact ⟨hi.faithful, hi.fresh, fun _ => hat⟩
  · -- WaitReadable
    rename_i hpc
    rw [hpc] at hat
    split at h
    · cases h; exact ⟨hi.faithful, hi.fresh, fun _ => hat⟩
    · cases h; exact ⟨hi.faithful, hi.fresh, hat⟩
    · cases h; exact ⟨hi.faithful, hi.fresh, fun hd => by cases hd⟩
  · -- the next message
    rename_i hpc
    rw [hpc] at hat
    dsimp only at h
    split at h
    · cases h; exact ⟨hi.faithful, hi.fresh, fun hd => by cases hd⟩
    · rename_i m hm
      cases h
      exact ⟨hi.faithful, hi.fresh, s.left, hat, parseStream_of_read hm⟩
  · -- its delivery
    rename_i m hpc
    split at h
    · cases h; exact (hi.deliver hpc).1
    · rename_i hs
      cases h
      exact (hi.deliver hpc).2 (Bool.eq_false_iff.2 hs)
  · -- Close
    rename_i drop hpc
    rw [hpc] at hat
    cases h
    refine ⟨hi.faithful, hi.fresh, ?_⟩
    cases drop with
    | true => trivial
    | false => exact fun hc => by rw [show s.hasClient = false from hat rfl] at hc; cases hc
  · -- has_client_ is cleared
    cases h
    exact ⟨hi.faithful, hi.fresh, fun hc => by cases hc⟩
  · cases h

/-! ## The other threads -/

structure IoFrame (s s' : State) : Prop where
  io         : s'.io = s.io
  hasClient  : s'.hasClient = s.hasClient
  conn       : s'.conn = s.conn
  script     : s'.script = s.script
  left       : s'.left = s.left
  dispatched : s'.dispatched = s.dispatched
  pushed     : s'.pushed = s.pushed
  completed  : s'.completed = s.completed
  ack        : ∀ c, ackOn c s'.wire = ackOn c s.wire
  queued     : s'.polled ++ s'.inboundQueue.queue = s.polled ++ s.inboundQueue.queue

theorem IoFrame.refl (s : State) : IoFrame s s := ⟨rfl, rfl, rfl, rfl, rfl, rfl, rfl, rfl, fun _ => rfl, rfl⟩

theorem Sending.cause_ne (w : Sending) : w.cause ≠ .helloAck := by cases w <;> simp [Sending.cause]

theorem poll_queued {q : Received} {queue queue' : BlockingQueue Received} (polled : List Received)
    (h : queue.pop = (some q, queue')) : (polled ++ [q]) ++ queue'.queue = polled ++ queue.queue := by
  have hq := queue.pop_queue
  rw [h] at hq
  rw [List.append_assoc, ← hq]
  rfl

theorem rtlStep_frame {s s' : State} {e : RtlEvent} (h : rtlStep s e = some s') : IoFrame s s' := by
  unfold rtlStep at h
  split at h
  · split at h
    · rename_i hq
      cases h
      exact { IoFrame.refl s with queued := poll_queued s.polled hq }
    · cases h; exact IoFrame.refl s
    · cases h
  · cases h; exact { IoFrame.refl s with }
  · split at h
    · cases h
    · split at h <;> cases h
      · exact { IoFrame.refl s with }
      · exact IoFrame.refl s
  · split at h <;> cases h
    · exact { IoFrame.refl s with }
    · exact IoFrame.refl s
  · cases h; exact { IoFrame.refl s with }
  · split at h
    · cases h
    · cases h; exact { IoFrame.refl s with }
  · cases h; exact { IoFrame.refl s with }
  · split at h
    · cases h
      exact { IoFrame.refl s with ack := fun c => ackOn_append_other c s.conn _ (Sending.cause_ne _) _ _ }
    · cases h; exact { IoFrame.refl s with }
  · cases h; exact { IoFrame.refl s with }
  · split at h <;> cases h
    · exact { IoFrame.refl s with }
    · exact { IoFrame.refl s with }
  · cases h

theorem stopStep_frame {s s' : State} (h : stopStep s = some s') : IoFrame s s' := by
  unfold stopStep at h
  split at h
  · cases h; exact { IoFrame.refl s with }
  · cases h; exact { IoFrame.refl s with }
  · cases h; exact { IoFrame.refl s with }
  · cases h; exact { IoFrame.refl s with }
  · split at h
    · cases h; exact { IoFrame.refl s with }
    · cases h
  · cases h; exact { IoFrame.refl s with }
  · cases h

theorem IoFrame.dispatch {s s' : State} (hf : IoFrame s s') (hi : Dispatch s) : Dispatch s' := by
  refine ⟨fun c => ?_, fun c hc => ?_, ?_⟩
  · rw [hf.script, hf.dispatched, hf.ack]; exact hi.faithful c
  · rw [hf.conn] at hc; rw [hf.dispatched, hf.ack]; exact hi.fresh c hc
  · rw [hf.script, hf.conn, hf.dispatched, hf.ack, hf.io, hf.hasClient, hf.left]; exact hi.at_

theorem step_dispatch {s s' : State} {e : Event} (hi : Dispatch s) (h : step s e = some s') : Dispatch s' := by
  cases e with
  | io e => exact ioStep_dispatch hi h
  | rtl e => exact (rtlStep_frame h).dispatch hi
  | stop => exact (stopStep_frame h).dispatch hi

/-! ## What the I/O thread does with messages -/

def State.reads (s : State) : Event → List Received
  | .io .go =>
    match s.io, (readMessage s.left).message with
    | .reading, .ok m => [⟨s.conn, m⟩]
    | _, _            => []
  | _       => []

def State.inHand (s : State) : List Received :=
  match s.io with
  | .dispatching m => [⟨s.conn, m⟩]
  | _              => []

/-- What a step does to the pending table, and the result. -/
def State.tableEntries (s : State) : Event → List (Entry Received)
  | .io .go  =>
    match s.io with
    | .dispatching m =>
      if m.isDmaRsp then [.completed m.header.txnId ⟨s.conn, m⟩ (s.pending.complete m.header.txnId ⟨s.conn, m⟩).1]
      else []
    | _              => []
  | .rtl .go =>
    match s.call with
    | .registering _ txnId true _ => [.registered txnId]
    | .dropping txnId             => [.returned txnId (s.pending.waitFor txnId).1]
    | .waiting _ txnId            => [.returned txnId (s.pending.waitFor txnId).1]
    | _                           => []
  | .stop    => if s.stop = .shutDown then [.cancelled] else []
  | _        => []

theorem Message.isDmaRsp_of_shutdown {m : Message} (h : m.header.isType .shutdown = true) : m.isDmaRsp = false := by
  unfold Message.isDmaRsp
  rw [Bool.or_eq_false_iff]
  constructor
  · cases hr : m.header.isType .dmaReadRsp with
    | false => rfl
    | true => cases Header.isType_unique h hr
  · cases hr : m.header.isType .dmaWriteRsp with
    | false => rfl
    | true => cases Header.isType_unique h hr

/-- A step of the I/O thread that neither reads a message nor delivers one. -/
structure Idle (s : State) (e : IoEvent) (s' : State) : Prop where
  reads        : s.reads (.io e) = []
  tableEntries : s.tableEntries (.io e) = []
  before       : s.inHand = []
  after        : s'.inHand = []
  same         : s' = { s with
    hasClient := s'.hasClient, isOpen := s'.isOpen, sendMutex := s'.sendMutex, io := s'.io, conn := s'.conn,
    script := s'.script, left := s'.left, wire := s'.wire }

/-- **The I/O thread reads a message, delivers the one in hand, or leaves all messages where they are.** -/
theorem ioStep_cases {s s' : State} {e : IoEvent} (h : ioStep s e = some s') :
    Idle s e s' ∨
    (∃ m, e = .go ∧ s.io = .reading ∧ (readMessage s.left).message = .ok m ∧
      s' = { s with left := (readMessage s.left).rest, io := .dispatching m }) ∨
    (∃ m pc, e = .go ∧ s.io = .dispatching m ∧ s' = { (s.record m).dispatchIncoming m with io := pc } ∧
      s'.inHand = []) := by
  unfold ioStep at h
  split at h
  · rename_i hpc
    cases h
    refine .inl ⟨by simp only [State.reads, hpc], by simp only [State.tableEntries, hpc],
      by simp only [State.inHand, hpc], ?_, rfl⟩
    unfold State.inHand
    dsimp only
    split_ifs <;> rfl
  · rename_i hpc
    cases h
    exact .inl ⟨rfl, rfl, by simp only [State.inHand, hpc], rfl, rfl⟩
  · rename_i hpc
    cases h
    exact .inl ⟨rfl, rfl, by simp only [State.inHand, hpc], rfl, rfl⟩
  · rename_i hpc
    dsimp only at h
    split at h <;> cases h <;>
      exact .inl ⟨by simp only [State.reads, hpc], by simp only [State.tableEntries, hpc],
        by simp only [State.inHand, hpc], rfl, rfl⟩
  · rename_i hpc
    have hidle : ∀ {t : State}, t.inHand = [] → t = { s with
        hasClient := t.hasClient, isOpen := t.isOpen, sendMutex := t.sendMutex, io := t.io, conn := t.conn,
        script := t.script, left := t.left, wire := t.wire } → Idle s .go t :=
      fun ht hsame => ⟨by simp only [State.reads, hpc], by simp only [State.tableEntries, hpc],
        by simp only [State.inHand, hpc], ht, hsame⟩
    split at h
    · cases h
      exact .inl (hidle rfl rfl)
    · split at h
      · cases h
      · cases h
        exact .inl (hidle rfl rfl)
  · rename_i hpc
    cases h
    exact .inl ⟨rfl, rfl, by simp only [State.inHand, hpc], rfl, rfl⟩
  · rename_i hpc
    split at h <;> cases h <;> exact .inl ⟨rfl, rfl, by simp only [State.inHand, hpc], rfl, rfl⟩
  · rename_i hpc
    cases h
    exact .inl ⟨by simp only [State.reads, hpc], by simp only [State.tableEntries, hpc],
      by simp only [State.inHand, hpc], rfl, rfl⟩
  · rename_i hpc
    split at h <;> cases h <;> exact .inl ⟨rfl, rfl, by simp only [State.inHand, hpc], rfl, rfl⟩
  · -- a message is read
    rename_i hpc
    dsimp only at h
    split at h
    · rename_i hm
      cases h
      exact .inl ⟨by simp only [State.reads, hpc, hm], by simp only [State.tableEntries, hpc],
        by simp only [State.inHand, hpc], rfl, rfl⟩
    · rename_i m hm
      cases h
      exact .inr (.inl ⟨m, rfl, hpc, hm, rfl⟩)
  · -- and delivered
    rename_i m hpc
    split at h
    · rename_i hs
      cases h
      refine .inr (.inr ⟨m, .closing true, rfl, hpc, ?_, rfl⟩)
      rw [State.dispatchIncoming, if_neg (Bool.eq_false_iff.1 (Message.isDmaRsp_of_shutdown hs))]
    · cases h
      exact .inr (.inr ⟨m, .top, rfl, hpc, rfl, rfl⟩)
  · rename_i drop hpc
    cases h
    refine .inl ⟨by simp only [State.reads, hpc], by simp only [State.tableEntries, hpc],
      by simp only [State.inHand, hpc], ?_, rfl⟩
    cases drop <;> rfl
  · rename_i hpc
    cases h
    exact .inl ⟨by simp only [State.reads, hpc], by simp only [State.tableEntries, hpc],
      by simp only [State.inHand, hpc], rfl, rfl⟩
  · cases h

/-! ## Where the messages go -/

/-- Every dispatched message is in one place, and what was pushed is what was polled followed by what waits. -/
structure Routing (s : State) : Prop where
  pushed    : s.pushed = s.dispatched.filter (fun r => !r.message.isDmaRsp)
  completed : s.completed = s.dispatched.filter (fun r => r.message.isDmaRsp)
  queued    : s.polled ++ s.inboundQueue.queue = s.pushed

theorem Routing.push {s : State} (hi : Routing s) {m : Message} (hm : m.isDmaRsp = false) :
    Routing ((s.record m).push m) := by
  refine ⟨?_, ?_, ?_⟩
  · dsimp only [State.push, State.record]; rw [hi.pushed]; simp [hm]
  · dsimp only [State.push, State.record]; rw [hi.completed]; simp [hm]
  · dsimp only [State.push, State.record]
    rw [BlockingQueue.push_queue, ← List.append_assoc, hi.queued]

theorem Routing.complete {s : State} (hi : Routing s) {m : Message} (hm : m.isDmaRsp = true) :
    Routing ((s.record m).complete m) := by
  refine ⟨?_, ?_, hi.queued⟩
  · dsimp only [State.complete, State.record]; rw [hi.pushed]; simp [hm]
  · dsimp only [State.complete, State.record]; rw [hi.completed]; simp [hm]

theorem Routing.deliver {s : State} (hi : Routing s) (m : Message) : Routing ((s.record m).dispatchIncoming m) := by
  unfold State.dispatchIncoming
  split
  · rename_i hd
    exact hi.complete hd
  · rename_i hd
    exact hi.push (Bool.eq_false_iff.2 hd)

theorem ioStep_routing {s s' : State} {e : IoEvent} (hi : Routing s) (h : ioStep s e = some s') : Routing s' := by
  rcases ioStep_cases h with hidle | ⟨m, -, -, -, rfl⟩ | ⟨m, pc, -, -, rfl, -⟩
  · rw [hidle.same]
    exact ⟨hi.pushed, hi.completed, hi.queued⟩
  · exact ⟨hi.pushed, hi.completed, hi.queued⟩
  · exact ⟨(hi.deliver m).pushed, (hi.deliver m).completed, (hi.deliver m).queued⟩

theorem IoFrame.routing {s s' : State} (hf : IoFrame s s') (hi : Routing s) : Routing s' := by
  refine ⟨?_, ?_, ?_⟩
  · rw [hf.pushed, hf.dispatched]; exact hi.pushed
  · rw [hf.completed, hf.dispatched]; exact hi.completed
  · rw [hf.queued, hf.pushed]; exact hi.queued

theorem step_routing {s s' : State} {e : Event} (hi : Routing s) (h : step s e = some s') : Routing s' := by
  cases e with
  | io e => exact ioStep_routing hi h
  | rtl e => exact (rtlStep_frame h).routing hi
  | stop => exact (stopStep_frame h).routing hi

/-! ## What is read, and what the pending table is for -/

def ReadSoFar (L : List Received) (s : State) : Prop := L = s.dispatched ++ s.inHand

/-- The table and what it was completed with are those of the history. -/
structure Recorded (L : List (Entry Received)) (s : State) : Prop where
  tells     : Tells L.reverse s.pending
  completed : s.completed = L.filterMap Entry.completed?

theorem ioStep_reads {L : List Received} {s s' : State} {e : IoEvent} (hi : ReadSoFar L s) (h : ioStep s e = some s') :
    ReadSoFar (L ++ s.reads (.io e)) s' := by
  unfold ReadSoFar at hi ⊢
  rcases ioStep_cases h with hidle | ⟨m, rfl, hpc, hm, rfl⟩ | ⟨m, pc, rfl, hpc, hs, hend⟩
  · have hd : s'.dispatched = s.dispatched := by rw [hidle.same]
    rw [hidle.reads, hi, hidle.before, hidle.after, hd, List.append_nil]
  · simp only [hi, State.reads, State.inHand, hpc, hm, List.append_nil]
  · have hd : s'.dispatched = s.dispatched ++ [⟨s.conn, m⟩] := by
      rw [hs, State.dispatchIncoming]
      split <;> rfl
    rw [hend, hd, hi]
    simp only [State.reads, State.inHand, hpc, List.append_nil]

theorem IoFrame.reads {L : List Received} {s s' : State} {e : Event} (hf : IoFrame s s') (hi : ReadSoFar L s)
    (hreads : s.reads e = []) : ReadSoFar (L ++ s.reads e) s' := by
  have hhand : s'.inHand = s.inHand := by
    unfold State.inHand
    rw [hf.io, hf.conn]
  unfold ReadSoFar at hi ⊢
  rw [hreads, List.append_nil, hi, hhand, hf.dispatched]

theorem step_reads {L : List Received} {s s' : State} {e : Event} (hi : ReadSoFar L s) (h : step s e = some s') :
    ReadSoFar (L ++ s.reads e) s' := by
  cases e with
  | io e  => exact ioStep_reads hi h
  | rtl e => exact (rtlStep_frame h).reads hi rfl
  | stop  => exact (stopStep_frame h).reads hi rfl

theorem Recorded.quiet {L : List (Entry Received)} {s t : State} {e : Event} (hi : Recorded L s)
    (hentries : s.tableEntries e = []) (hp : t.pending = s.pending) (hc : t.completed = s.completed) :
    Recorded (L ++ s.tableEntries e) t := by
  rw [hentries, List.append_nil]
  exact ⟨hp ▸ hi.tells, hc.trans hi.completed⟩

theorem Recorded.snoc {L : List (Entry Received)} {s t : State} {e : Event} {x : Entry Received} (hi : Recorded L s)
    (hentries : s.tableEntries e = [x]) (hp : Tells (x :: L.reverse) t.pending)
    (hc : t.completed = s.completed ++ x.completed?.toList) : Recorded (L ++ s.tableEntries e) t := by
  rw [hentries]
  refine ⟨?_, ?_⟩
  · rw [List.reverse_append]
    exact hp
  · rw [hc, hi.completed, List.filterMap_append]
    cases x <;> rfl

theorem ioStep_recorded {L : List (Entry Received)} {s s' : State} {e : IoEvent} (hi : Recorded L s)
    (h : ioStep s e = some s') : Recorded (L ++ s.tableEntries (.io e)) s' := by
  rcases ioStep_cases h with hidle | ⟨m, rfl, hpc, -, rfl⟩ | ⟨m, pc, rfl, hpc, rfl, -⟩
  · exact hi.quiet hidle.tableEntries (by rw [hidle.same]) (by rw [hidle.same])
  · exact hi.quiet (by simp only [State.tableEntries, hpc]) rfl rfl
  · have hentries : s.tableEntries (.io .go) = if m.isDmaRsp then
        [.completed m.header.txnId ⟨s.conn, m⟩ (s.pending.complete m.header.txnId ⟨s.conn, m⟩).1] else [] := by
      simp only [State.tableEntries, hpc]
    unfold State.dispatchIncoming
    split
    · rename_i hd
      rw [if_pos hd] at hentries
      exact hi.snoc hentries (hi.tells.complete _ _) rfl
    · rename_i hd
      rw [if_neg hd] at hentries
      exact hi.quiet hentries rfl rfl

theorem rtlStep_recorded {L : List (Entry Received)} {s s' : State} {e : RtlEvent} (hi : Recorded L s)
    (h : rtlStep s e = some s') : Recorded (L ++ s.tableEntries (.rtl e)) s' := by
  unfold rtlStep at h
  split at h
  · split at h <;> cases h <;> exact hi.quiet rfl rfl rfl
  · cases h
    exact hi.quiet rfl rfl rfl
  · split at h
    · cases h
    · split at h <;> cases h <;> exact hi.quiet rfl rfl rfl
  · split at h <;> cases h <;> exact hi.quiet rfl rfl rfl
  · rename_i call txnId expectResponse bytes hpc
    cases h
    cases expectResponse with
    | true  => exact hi.snoc (by simp only [State.tableEntries, hpc]) (hi.tells.register txnId) (List.append_nil _).symm
    | false => exact hi.quiet (by simp only [State.tableEntries, hpc]) rfl rfl
  · rename_i hpc
    split at h
    · cases h
    · cases h
      exact hi.quiet (by simp only [State.tableEntries, hpc]) rfl rfl
  · cases h
    exact hi.quiet rfl rfl rfl
  · split at h <;> cases h <;> exact hi.quiet rfl rfl rfl
  · rename_i txnId hpc
    cases h
    exact hi.snoc (by simp only [State.tableEntries, hpc]) (hi.tells.waitFor txnId) (List.append_nil _).symm
  · rename_i call txnId hpc
    have hentries : s.tableEntries (.rtl .go) = [.returned txnId (s.pending.waitFor txnId).1] := by
      simp only [State.tableEntries, hpc]
    have htells := hi.tells.waitFor txnId
    split at h
    · rename_i q pending hw
      cases h
      rw [hw] at hentries htells
      exact hi.snoc hentries htells (List.append_nil _).symm
    · rename_i pending hw
      cases h
      rw [hw] at hentries htells
      exact hi.snoc hentries htells (List.append_nil _).symm
  · cases h

theorem stopStep_recorded {L : List (Entry Received)} {s s' : State} (hi : Recorded L s) (h : stopStep s = some s') :
    Recorded (L ++ s.tableEntries .stop) s' := by
  have hquiet : s.stop ≠ .shutDown → s.tableEntries .stop = [] := fun hne => if_neg hne
  unfold stopStep at h
  split at h
  · rename_i hpc
    cases h
    exact hi.quiet (hquiet (by rw [hpc]; decide)) rfl rfl
  · rename_i hpc
    cases h
    exact hi.quiet (hquiet (by rw [hpc]; decide)) rfl rfl
  · rename_i hpc
    cases h
    exact hi.quiet (hquiet (by rw [hpc]; decide)) rfl rfl
  · rename_i hpc
    cases h
    exact hi.snoc (if_pos hpc) hi.tells.cancelAll (List.append_nil _).symm
  · rename_i hpc
    split at h
    · cases h
      exact hi.quiet (hquiet (by rw [hpc]; decide)) rfl rfl
    · cases h
  · rename_i hpc
    cases h
    exact hi.quiet (hquiet (by rw [hpc]; decide)) rfl rfl
  · cases h

/-- **Every step does to the table what it puts down.** -/
theorem step_recorded {L : List (Entry Received)} {s s' : State} {e : Event} (hi : Recorded L s)
    (h : step s e = some s') : Recorded (L ++ s.tableEntries e) s' := by
  cases e with
  | io e  => exact ioStep_recorded hi h
  | rtl e => exact rtlStep_recorded hi h
  | stop  => exact stopStep_recorded hi h

/-- **What the server delivers is a faithful prefix of what the client sent**, in every run.  For every connection,
what was dispatched from it is a front part of the parse of its stream after the first message; there is nothing of it
unless that message is a HELLO whose HELLO_ACK was written in full, and nothing after a SHUTDOWN.  Each dispatched
message went to the pending table or to the queue, by its type, and the consumer has polled the queued ones in order.
Each message that was read is dispatched, and each dispatched DMA response is handed to the table, once and in order. -/
theorem server_dispatch_faithful (es : List Event) (s : State) (h : run step State.init es = some s) :
    (∀ c, receivedOn c s.dispatched <+: (parseStream (streamOf (s.script c))).tail ∧
      (receivedOn c s.dispatched ≠ [] → ∃ hello ack : Message,
        (parseStream (streamOf (s.script c))).head? = some hello ∧ hello.header.isType .hello = true ∧
        ack.header.isType .helloAck = true ∧ ack.header.txnId = hello.header.txnId ∧ ackOn c s.wire = ack.bytes) ∧
      (∀ m ∈ (receivedOn c s.dispatched).dropLast, m.header.isType .shutdown = false)) ∧
    s.pushed = s.dispatched.filter (fun r => !r.message.isDmaRsp) ∧
    s.completed = s.dispatched.filter (fun r => r.message.isDmaRsp) ∧
    s.pushed = s.polled ++ s.inboundQueue.queue ∧
    -- every message that is read is dispatched, but for the one in hand; a SHUTDOWN too
    history step State.reads State.init es = s.dispatched ++ s.inHand ∧
    -- the pending table is completed with its messages, and holds what its history says
    s.completed = (history step State.tableEntries State.init es).filterMap Entry.completed? ∧
    Tells (history step State.tableEntries State.init es).reverse s.pending := by
  have hd := Run.run_invariant (fun _ _ _ hi he => step_dispatch hi he) es _ s dispatch_init h
  have hr : Routing s := Run.run_invariant (fun _ _ _ hi he => step_routing hi he) es _ s ⟨rfl, rfl, rfl⟩ h
  have hread := Run.run_history (R := ReadSoFar) (fun _ _ _ _ hi he => step_reads hi he) es [] State.init s rfl h
  have hrec := Run.run_history (R := Recorded) (fun _ _ _ _ hi he => step_recorded hi he) es [] State.init s
    ⟨⟨trivial, fun _ => rfl⟩, rfl⟩ h
  rw [List.nil_append] at hread hrec
  refine ⟨fun c => ⟨(hd.faithful c).parsed, fun hne => ?_, (hd.faithful c).ended⟩, hr.pushed, hr.completed,
    hr.queued.symm, hread, hrec.completed, hrec.tells⟩
  obtain ⟨hello, hhead, ht, ha⟩ := (hd.faithful c).greeted hne
  exact ⟨hello, helloAck hello, hhead, ht, by simp [Header.isType, helloAck, makeHeader], rfl, ha⟩

/-- A connection that greets, writes a register and disconnects. -/
theorem server_dispatch_faithful_write :
    let hello : Message := ⟨makeHeader .hello 1 0 0 .success 0 0, []⟩
    let write : Message := ⟨makeHeader .mmioWriteReq 2 0x14 0 .success 0 4, [1, 0, 0, 0]⟩
    let ready : List PollRet := [.revents false false false true]
    let rx : List RxTurn := [⟨ready, .data (hello.bytes ++ write.bytes.take 3)⟩, ⟨ready, .data (write.bytes.drop 3)⟩]
    let es : List Event :=
      [.io .go, .io (.accept (some rx)), .io .go, .io .go, .io (.send ⟨ready, .wrote 5⟩),
        .io (.send ⟨ready, .wrote 64⟩), .io (.send ⟨[], .eintr⟩), .io .go, .io .go, .io (.wait ready), .io .go, .io .go,
        .rtl .poll, .io .go, .io (.wait ready), .io .go, .io .go, .io .go]
    ∃ s, run step State.init es = some s ∧ s.hasClient = false ∧ s.polled = [⟨1, write⟩] ∧
      s.pushed = s.polled ++ s.inboundQueue.queue := by
  intro hello write ready rx es
  have hrun : (run step State.init es).map (fun s => (s.hasClient, s.polled)) = some (false, [⟨1, write⟩]) := by
    decide +kernel
  obtain ⟨s, hs, heq⟩ := Option.map_eq_some_iff.1 hrun
  exact ⟨s, hs, congrArg Prod.fst heq, congrArg Prod.snd heq, (server_dispatch_faithful es s hs).2.2.2.1⟩

end Ics
end Vip
