import PcieVip.ServerDispatch
/-!
# ServerSessions — connections in sequence

`inbound_queue_`, `pending_` and the RTL thread outlive a connection, while `IoThreadMain` accepts the next one as soon
as the last is gone.  `Isolated` says that nothing crosses from one connection to another.  It fails
(`not_isolated`), and holds in every run that accepts connections only when the RTL side has nothing left to do
(`isolated_of_quiet_accepts`).
-/
namespace Vip
namespace Ics

open Run (run Along)

/-- A response is written to no other connection than its request came from, and what `SendRequestToHost` returns was
received on the connection its request was written to. -/
structure Isolated (wire : List WireByte) (returned : List Returned) : Prop where
  responses : ∀ w ∈ wire, ∀ c, w.cause = .response c → w.conn = c
  answers   : ∀ r ∈ returned, (∃ w ∈ wire, w.cause = .request r.call) ∧
    ∀ w ∈ wire, w.cause = .request r.call → w.conn = r.answer.conn

/-- The RTL side has nothing to do: no request is queued or being handled, and no call of the server is under way. -/
def Quiet (s : State) : Prop := s.inboundQueue.queue = [] ∧ s.held = none ∧ s.call = .idle

instance (s : State) : Decidable (Quiet s) := inferInstanceAs (Decidable (_ ∧ _ ∧ _))

/-- A connection is accepted only in quiet. -/
def QuietAccept (s : State) : Event → Prop
  | .io (.accept (some _)) => Quiet s
  | _                      => True

instance (s : State) : (e : Event) → Decidable (QuietAccept s e)
  | .io (.accept (some _)) => inferInstanceAs (Decidable (Quiet s))
  | .io (.accept none)     => isTrue trivial
  | .io .go                => isTrue trivial
  | .io (.send _)          => isTrue trivial
  | .io (.wait _)          => isTrue trivial
  | .rtl _                 => isTrue trivial
  | .stop                  => isTrue trivial

/-! ## The call under way -/

def Call.number : Call → Option Nat
  | .registering k _ _ _            => some k
  | .locking (.request k _ _) _     => some k
  | .sending (.request k _ _) _     => some k
  | .waiting k _                    => some k
  | _                               => none

def Call.awaited : Call → Option UInt64
  | .locking (.request _ t expect) _  => if expect then some t else none
  | .sending (.request _ t expect) _  => if expect then some t else none
  | .dropping t                       => some t
  | .waiting _ t                      => some t
  | _                                 => none

def Call.answering : Call → Option Nat
  | .locking (.response c) _        => some c
  | .sending (.response c) _        => some c
  | _                               => none

/-- Some of the request is still to be written, or some of it was. -/
def Call.Wrote (wire : List WireByte) : Call → Prop
  | .registering _ _ _ bytes            => bytes ≠ []
  | .locking (.request _ _ _) bytes     => bytes ≠ []
  | .sending (.request k _ _) left      => left ≠ [] ∨ ∃ w ∈ wire, w.cause = .request k
  | .waiting k _                        => ∃ w ∈ wire, w.cause = .request k
  | _                                   => True

/-- Everything the RTL side holds came from the last connection, and the call under way has only written to it. -/
structure Sessions (s : State) : Prop where
  queue      : ∀ q ∈ s.inboundQueue.queue, q.conn = s.conn
  held       : ∀ q ∈ s.held, q.conn = s.conn
  answering  : ∀ c ∈ s.call.answering, c = s.conn
  registered : ∀ id, s.pending.pending id ≠ none → s.call.awaited = some id
  answered   : ∀ id q, s.pending.pending id = some (some q) → q.conn = s.conn
  number     : ∀ k ∈ s.call.number, k < s.calls ∧ (∀ r ∈ s.returned, r.call ≠ k) ∧
    ∀ w ∈ s.wire, w.cause = .request k → w.conn = s.conn
  wrote      : s.call.Wrote s.wire
  wireCalls  : ∀ w ∈ s.wire, ∀ k, w.cause = .request k → k < s.calls
  retCalls   : ∀ r ∈ s.returned, r.call < s.calls
  isolated   : Isolated s.wire s.returned

theorem sessions_init : Sessions State.init where
  queue := fun _ h => by cases h
  held := fun _ h => by cases h
  answering := fun _ h => by cases h
  registered := fun _ h => absurd rfl h
  answered := fun _ _ h => by cases h
  number := fun _ h => by cases h
  wrote := trivial
  wireCalls := fun _ h => by cases h
  retCalls := fun _ h => by cases h
  isolated := ⟨fun _ h => (by cases h), fun _ h => by cases h⟩

/-! ## The I/O thread -/

theorem mem_write {s : State} {cause : Cause} {bs : List UInt8} {w : WireByte} (h : w ∈ (s.write cause bs).wire) :
    w ∈ s.wire ∨ w.conn = s.conn ∧ w.cause = cause := by
  rcases List.mem_append.1 h with h | h
  · exact .inl h
  · obtain ⟨b, -, rfl⟩ := List.mem_map.1 h
    exact .inr ⟨rfl, rfl⟩

theorem Call.Wrote.mono {wire wire' : List WireByte} (hsub : ∀ w ∈ wire, w ∈ wire') {c : Call} (h : c.Wrote wire) :
    c.Wrote wire' := by
  unfold Call.Wrote at h ⊢
  split at h
  · exact h
  · exact h
  · rcases h with h | ⟨w, hw, hc⟩
    · exact .inl h
    · exact .inr ⟨w, hsub w hw, hc⟩
  · obtain ⟨w, hw, hc⟩ := h
    exact ⟨w, hsub w hw, hc⟩
  · trivial

theorem Sessions.write_ack {s : State} (hi : Sessions s) (bs : List UInt8) : Sessions (s.write .helloAck bs) := by
  have hold : ∀ w ∈ (s.write .helloAck bs).wire, w.cause ≠ .helloAck → w ∈ s.wire := by
    intro w hw hc
    rcases mem_write hw with hw | ⟨-, hw⟩
    · exact hw
    · exact absurd hw hc
  refine { hi with number := ?_, wrote := ?_, wireCalls := ?_, isolated := ⟨?_, ?_⟩ }
  · intro k hk
    obtain ⟨hlt, hret, hw⟩ := hi.number k hk
    exact ⟨hlt, hret, fun w hw' hc => hw w (hold w hw' (by rw [hc]; simp)) hc⟩
  · exact hi.wrote.mono (fun w hw => List.mem_append_left _ hw)
  · exact fun w hw k hc => hi.wireCalls w (hold w hw (by rw [hc]; simp)) k hc
  · exact fun w hw c hc => hi.isolated.responses w (hold w hw (by rw [hc]; simp)) c hc
  · intro r hr
    obtain ⟨⟨w, hw, hc⟩, hall⟩ := hi.isolated.answers r hr
    exact ⟨⟨w, List.mem_append_left _ hw, hc⟩, fun w' hw' hc' => hall w' (hold w' hw' (by rw [hc']; simp)) hc'⟩

theorem Sessions.push {s : State} (hi : Sessions s) (m : Message) : Sessions (s.push m) := by
  refine { hi with queue := ?_ }
  intro q hq
  rcases List.mem_append.1 hq with hq | hq
  · exact hi.queue q hq
  · rw [List.mem_singleton.1 hq]; rfl

theorem Sessions.complete {s : State} (hi : Sessions s) (m : Message) : Sessions (s.complete m) := by
  refine { hi with registered := ?_, answered := ?_ }
  · intro id hid
    exact hi.registered id (fun hn => hid ((PendingRequestTable.complete_pending_none _ _ _ _).2 hn))
  · intro id q hq
    rcases PendingRequestTable.complete_pending hq with hq | ⟨-, rfl⟩
    · exact hi.answered id q hq
    · rfl

theorem Sessions.pending_none {s : State} (hi : Sessions s) (hcall : s.call.awaited = none) (id : UInt64) :
    s.pending.pending id = none := by
  by_contra hne
  rw [hi.registered id hne] at hcall
  cases hcall

theorem ioStep_sessions {s s' : State} {e : IoEvent} (hi : Sessions s) (hg : QuietAccept s (.io e))
    (h : ioStep s e = some s') : Sessions s' := by
  unfold ioStep at h
  split at h
  · cases h; exact { hi with }
  · cases h; exact { hi with }
  · -- the new connection finds the RTL side quiet
    cases h
    obtain ⟨hq, hh, hcall⟩ := hg
    have hnone := hi.pending_none (by rw [hcall]; rfl)
    exact
      { hi with
        queue := fun q hm => by rw [hq] at hm; cases hm
        held := fun q hm => by rw [hh] at hm; cases hm
        answering := fun c hm => by rw [hcall] at hm; cases hm
        answered := fun id q hm => by rw [hnone id] at hm; cases hm
        number := fun k hm => by rw [hcall] at hm; cases hm }
  · dsimp only at h
    split at h <;> cases h <;> exact { hi with }
  · split at h
    · cases h; exact { hi with }
    · split at h
      · cases h
      · cases h; exact { hi with }
  · cases h; exact { hi with }
  · split at h
    · cases h
      exact { hi.write_ack _ with }
    · cases h; exact { hi with }
  · cases h; exact { hi with }
  · split at h <;> cases h <;> exact { hi with }
  · dsimp only at h
    split at h <;> cases h <;> exact { hi with }
  · rename_i m _
    have hrec : Sessions (s.record m) := { hi with }
    split at h
    · cases h
      exact { hrec.push m with }
    · cases h
      unfold State.dispatchIncoming
      split
      · exact { hrec.complete m with }
      · exact { hrec.push m with }
  · cases h; exact { hi with }
  · cases h; exact { hi with }
  · cases h

/-! ## The RTL thread -/

theorem waitFor_registered {s : State} (hi : Sessions s) (txnId : UInt64) (ht : s.call.awaited = some txnId)
    (id : UInt64) : (s.pending.waitFor txnId).2.pending id = none := by
  rw [PendingRequestTable.waitFor_pending]
  split
  · rfl
  · rename_i hne
    by_contra hp
    rw [hi.registered id hp] at ht
    exact hne (Option.some.inj ht)

theorem Sessions.write_rtl {s : State} (hi : Sessions s) {what : Sending} {b : UInt8} {bs w : List UInt8}
    (hcall : s.call = .sending what (b :: bs)) (left : List UInt8) (hw : left ≠ [] ∨ w ≠ []) :
    Sessions { s.write what.cause w with call := .sending what left } := by
  have hans := hi.answering
  have hreg := hi.registered
  have hnum := hi.number
  rw [hcall] at hans hreg hnum
  cases what with
  | response c =>
    have hc : c = s.conn := hans c rfl
    refine { hi with answering := hans, registered := hreg, number := fun k hk => (by cases hk), wrote := trivial
                     wireCalls := ?_, isolated := ⟨?_, ?_⟩ }
    · intro x hx k hk
      rcases mem_write hx with hx | ⟨-, hx⟩
      · exact hi.wireCalls x hx k hk
      · rw [hx] at hk; cases hk
    · intro x hx c' hc'
      rcases mem_write hx with hx | ⟨hconn, hx⟩
      · exact hi.isolated.responses x hx c' hc'
      · rw [hx] at hc'
        cases hc'
        exact hconn.trans hc.symm
    · intro r hr
      obtain ⟨⟨x, hx, hc⟩, hall⟩ := hi.isolated.answers r hr
      refine ⟨⟨x, List.mem_append_left _ hx, hc⟩, fun y hy hyc => ?_⟩
      rcases mem_write hy with hy | ⟨-, hy⟩
      · exact hall y hy hyc
      · rw [hy] at hyc; cases hyc
  | request k txnId expect =>
    obtain ⟨hlt, hne, hconn⟩ := hnum k rfl
    refine { hi with answering := hans, registered := hreg, number := ?_, wrote := ?_, wireCalls := ?_
                     isolated := ⟨?_, ?_⟩ }
    · intro k' hk'
      cases hk'
      refine ⟨hlt, hne, fun x hx hc => ?_⟩
      rcases mem_write hx with hx | ⟨hx, -⟩
      · exact hconn x hx hc
      · exact hx
    · rcases hw with hw | hw
      · exact .inl hw
      · obtain ⟨b', w', rfl⟩ := List.exists_cons_of_ne_nil hw
        exact .inr ⟨⟨s.conn, .request k, b'⟩, List.mem_append_right _ List.mem_cons_self, rfl⟩
    · intro x hx k' hk'
      rcases mem_write hx with hx | ⟨-, hx⟩
      · exact hi.wireCalls x hx k' hk'
      · rw [hx] at hk'; cases hk'; exact hlt
    · intro x hx c' hc'
      rcases mem_write hx with hx | ⟨-, hx⟩
      · exact hi.isolated.responses x hx c' hc'
      · rw [hx] at hc'; cases hc'
    · intro r hr
      obtain ⟨⟨x, hx, hc⟩, hall⟩ := hi.isolated.answers r hr
      refine ⟨⟨x, List.mem_append_left _ hx, hc⟩, fun y hy hyc => ?_⟩
      rcases mem_write hy with hy | ⟨-, hy⟩
      · exact hall y hy hyc
      · rw [hy] at hyc
        cases hyc
        exact absurd rfl (hne r hr)

theorem Sessions.after {s : State} (hi : Sessions s) {what : Sending} {left : List UInt8} {st : IoStatus}
    (hcall : s.call = .sending what left) (hst : st = .ok → left = []) :
    Sessions { s with sendMutex := false, call := what.after st } := by
  have hreg := hi.registered
  have hnum := hi.number
  have hwr := hi.wrote
  rw [hcall] at hreg hnum hwr
  match what, st with
  | .response _, _ =>
    exact { hi with answering := fun _ h => (by cases h), registered := hreg, number := fun _ h => (by cases h)
                    wrote := trivial }
  | .request _ _ false, _ =>
    exact { hi with answering := fun _ h => (by cases h), registered := hreg, number := fun _ h => (by cases h)
                    wrote := trivial }
  | .request _ _ true, .ok =>
    exact { hi with answering := fun _ h => (by cases h), registered := hreg, number := hnum
                    wrote := hwr.resolve_left (fun hne => hne (hst rfl)) }
  | .request _ _ true, .timeout =>
    exact { hi with answering := fun _ h => (by cases h), registered := hreg, number := fun _ h => (by cases h)
                    wrote := trivial }
  | .request _ _ true, .disconnected =>
    exact { hi with answering := fun _ h => (by cases h), registered := hreg, number := fun _ h => (by cases h)
                    wrote := trivial }
  | .request _ _ true, .error =>
    exact { hi with answering := fun _ h => (by cases h), registered := hreg, number := fun _ h => (by cases h)
                    wrote := trivial }

theorem sendTurn_stop {s : State} {left : List UInt8} {t : TxTurn} {st : IoStatus} (h : s.sendTurn left t = .stop st) :
    st ≠ .ok := by
  unfold State.sendTurn at h
  split at h
  · exact sendStep_stop h
  · cases h; decide

theorem Sessions.poll {s : State} (hi : Sessions s) {q : Received} {queue : BlockingQueue Received}
    (hq : s.inboundQueue.pop = (some q, queue)) :
    Sessions { s with inboundQueue := queue, held := some q, polled := s.polled ++ [q] } := by
  have hpop := s.inboundQueue.pop_queue
  rw [hq] at hpop
  have hmem : ∀ x, x ∈ q :: queue.queue → x.conn = s.conn := fun x hx => hi.queue x (by rw [← hpop]; exact hx)
  exact { hi with queue := fun x hx => hmem x (List.mem_cons_of_mem _ hx)
                  held := fun x hx => by cases hx; exact hmem q List.mem_cons_self }

theorem Sessions.respond {s : State} (hi : Sessions s) (hcall : s.call = .idle) {q : Received} (hq : s.held = some q)
    (bytes : List UInt8) : Sessions { s with call := .locking (.response q.conn) bytes } := by
  have hreg := hi.registered
  rw [hcall] at hreg
  exact { hi with answering := fun c hc => (by cases hc; exact hi.held q hq), registered := hreg
                  number := fun _ hk => (by cases hk), wrote := trivial }

theorem Sessions.request {s : State} (hi : Sessions s) (hcall : s.call = .idle) (r : Request) (txnId : UInt64)
    (txnGen : TransactionIdGenerator) :
    Sessions { s with txnGen, calls := s.calls + 1
                      call := .registering s.calls txnId r.expectResponse (r.message txnId).bytes } := by
  have hreg := hi.registered
  rw [hcall] at hreg
  refine { hi with answering := fun _ hc => (by cases hc), registered := hreg, number := ?_, wrote := ?_
                   wireCalls := fun w hw k hk => Nat.lt_succ_of_lt (hi.wireCalls w hw k hk)
                   retCalls := fun r hr => Nat.lt_succ_of_lt (hi.retCalls r hr) }
  · intro k hk
    cases hk
    refine ⟨Nat.lt_succ_self _, fun r hr => Nat.ne_of_lt (hi.retCalls r hr), fun w hw hc => ?_⟩
    exact absurd (hi.wireCalls w hw _ hc) (Nat.lt_irrefl _)
  · intro hnil
    have hlen := congrArg List.length hnil
    rw [Message.length_bytes, kHeaderSize, List.length_nil] at hlen
    omega

theorem Sessions.register {s : State} (hi : Sessions s) {k : Nat} {txnId : UInt64} {expect : Bool}
    {bytes : List UInt8} (hcall : s.call = .registering k txnId expect bytes) :
    Sessions { s with pending := if expect then s.pending.registerPending txnId else s.pending
                      call := .locking (.request k txnId expect) bytes } := by
  have hnone := hi.pending_none (by rw [hcall]; rfl)
  have hnum := hi.number
  have hwr := hi.wrote
  rw [hcall] at hnum hwr
  refine { hi with answering := fun _ hc => (by cases hc), registered := ?_, answered := ?_, number := hnum
                   wrote := hwr }
  · intro id hid
    cases expect with
    | false => exact absurd (hnone id) hid
    | true =>
      by_cases hx : id = txnId
      · rw [hx]; rfl
      · exact absurd (by simp [PendingRequestTable.registerPending, hx, hnone id]) hid
  · intro id q hq
    cases expect with
    | false => dsimp only at hq; rw [if_neg (by decide), hnone id] at hq; cases hq
    | true =>
      by_cases hx : id = txnId
      · subst hx; simp [PendingRequestTable.registerPending] at hq
      · simp [PendingRequestTable.registerPending, hx, hnone id] at hq

theorem Sessions.lock {s : State} (hi : Sessions s) {what : Sending} {bytes : List UInt8}
    (hcall : s.call = .locking what bytes) : Sessions { s with sendMutex := true, call := .sending what bytes } := by
  have hans := hi.answering
  have hreg := hi.registered
  have hnum := hi.number
  have hwr := hi.wrote
  rw [hcall] at hans hreg hnum hwr
  cases what with
  | response c => exact { hi with answering := hans, registered := hreg, number := hnum, wrote := trivial }
  | request k t expect =>
    exact { hi with answering := hans, registered := hreg, number := hnum, wrote := .inl hwr }

theorem Sessions.waited {s : State} (hi : Sessions s) {txnId : UInt64} (ht : s.call.awaited = some txnId) :
    Sessions { s with pending := (s.pending.waitFor txnId).2, call := .idle } := by
  have hnone := waitFor_registered hi txnId ht
  exact { hi with answering := fun _ hc => (by cases hc), registered := fun id hid => absurd (hnone id) hid
                  answered := fun id q hq => (by rw [hnone id] at hq; cases hq)
                  number := fun _ hk => (by cases hk), wrote := trivial }

theorem Sessions.returned {s : State} (hi : Sessions s) {k : Nat} {txnId : UInt64} (hcall : s.call = .waiting k txnId)
    {q : Received} (hq : (s.pending.waitFor txnId).1 = some q) :
    Sessions { s with pending := (s.pending.waitFor txnId).2, call := .idle, returned := s.returned ++ [⟨k, q⟩] } := by
  have hwaited := hi.waited (show s.call.awaited = some txnId by rw [hcall]; rfl)
  have hnum := hi.number
  have hwr := hi.wrote
  rw [hcall] at hnum hwr
  obtain ⟨hlt, hne, hconn⟩ := hnum k rfl
  have hqc : q.conn = s.conn := by
    have hfst := s.pending.waitFor_fst txnId
    rw [hq] at hfst
    refine hi.answered txnId q ?_
    cases hp : s.pending.pending txnId with
    | none => rw [hp] at hfst; cases hfst
    | some x => rw [hp] at hfst; cases hfst; rfl
  refine { hwaited with number := fun _ hk => (by cases hk), retCalls := ?_
                        isolated := ⟨hi.isolated.responses, ?_⟩ }
  · intro r hr
    rcases List.mem_append.1 hr with hr | hr
    · exact hi.retCalls r hr
    · rw [List.mem_singleton.1 hr]; exact hlt
  · intro r hr
    rcases List.mem_append.1 hr with hr | hr
    · exact hi.isolated.answers r hr
    · rw [List.mem_singleton.1 hr]
      exact ⟨hwr, fun w hw hc => (hconn w hw hc).trans hqc.symm⟩

theorem rtlStep_sessions {s s' : State} {e : RtlEvent} (hi : Sessions s) (h : rtlStep s e = some s') :
    Sessions s' := by
  unfold rtlStep at h
  split at h
  · -- PollInbound
    split at h
    · rename_i q queue _ hq
      cases h
      exact hi.poll hq
    · cases h; exact hi
    · cases h
  · cases h; exact { hi with held := fun _ hx => by cases hx }
  · -- SendResponse
    rename_i hcall
    split at h
    · cases h
    · rename_i q hq
      split at h
      · cases h; exact hi.respond hcall hq _
      · cases h; exact hi
  · -- SendRequestToHost
    rename_i r hcall
    split at h
    · cases h; exact hi.request hcall r _ _
    · cases h; exact hi
  · rename_i k txnId expect bytes hcall
    cases h
    exact hi.register hcall
  · rename_i what bytes hcall
    split at h
    · cases h
    · cases h; exact hi.lock hcall
  · -- SendAll
    rename_i what _ hcall
    cases h
    exact hi.after hcall (fun _ => rfl)
  · rename_i what b bs t hcall
    split at h
    · rename_i w hw
      cases h
      refine hi.write_rtl hcall _ ?_
      by_cases hnil : w = []
      · subst hnil; exact .inl (by simp)
      · exact .inr hnil
    · rename_i st hst
      cases h
      exact hi.after hcall (fun hok => absurd hok (sendTurn_stop hst))
  · -- WaitFor
    rename_i txnId hcall
    cases h
    exact hi.waited (by rw [hcall]; rfl)
  · rename_i k txnId hcall
    split at h
    · rename_i q pending hq
      cases h
      have hret := hi.returned hcall (congrArg Prod.fst hq)
      rwa [hq] at hret
    · rename_i pending hq
      cases h
      have hwait := hi.waited (show s.call.awaited = some txnId by rw [hcall]; rfl)
      rwa [hq] at hwait
  · cases h

/-! ## Stop -/

theorem stopStep_sessions {s s' : State} (hi : Sessions s) (h : stopStep s = some s') : Sessions s' := by
  unfold stopStep at h
  split at h
  · cases h; exact { hi with }
  · cases h; exact { hi with }
  · cases h; exact { hi with }
  · cases h
    exact { hi with registered := fun _ hid => absurd rfl hid, answered := fun _ _ hq => (by cases hq) }
  · split at h
    · cases h; exact { hi with }
    · cases h
  · cases h; exact { hi with }
  · cases h

theorem step_sessions {s s' : State} {e : Event} (hi : Sessions s) (hg : QuietAccept s e) (h : step s e = some s') :
    Sessions s' := by
  cases e with
  | io e => exact ioStep_sessions hi hg h
  | rtl e => exact rtlStep_sessions hi h
  | stop => exact stopStep_sessions hi h

/-- **Sessions are isolated in every run that accepts connections only in quiet.** -/
theorem isolated_of_quiet_accepts (es : List Event) (s : State) (hq : Along step QuietAccept State.init es)
    (h : run step State.init es = some s) : Isolated s.wire s.returned :=
  (Run.run_invariant_along (fun _ _ _ hi hg he => step_sessions hi hg he) es _ s sessions_init hq h).isolated

/-- Two connections in sequence; the RTL side has answered the first one's request before the second is accepted. -/
theorem isolated_of_quiet_accepts_two :
    let hello : Message := ⟨makeHeader .hello 1 0 0 .success 0 0, []⟩
    let read : Message := ⟨makeHeader .mmioReadReq 2 0x1C 0xF .success 0 0, []⟩
    let rsp : Header := makeHeader .mmioReadRsp 2 0x1C 0 .success 0 0 kFlagIsResponse
    let ready : List PollRet := [.revents false false false true]
    let greet : List RxTurn → List Event := fun rx =>
      [.io .go, .io (.accept (some rx)), .io .go, .io .go, .io (.send ⟨ready, .wrote 64⟩),
        .io (.send ⟨[], .eintr⟩), .io .go]
    let answer : List Event :=
      [.io .go, .io (.wait ready), .io .go, .io .go, .rtl .poll, .rtl (.respond rsp []), .rtl .go,
        .rtl (.send ⟨ready, .wrote 64⟩), .rtl (.send ⟨[], .eintr⟩), .rtl .finish,
        .io .go, .io (.wait [.revents false false true false]), .io .go, .io .go]
    let es : List Event :=
      greet [⟨ready, .data (hello.bytes ++ read.bytes)⟩] ++ answer ++ greet [⟨ready, .data hello.bytes⟩]
    Along step QuietAccept State.init es ∧
      ∃ s, run step State.init es = some s ∧ s.conn = 2 ∧ s.hasClient = true ∧ Isolated s.wire s.returned := by
  intro hello read rsp ready greet answer es
  have hq : Along step QuietAccept State.init es := by decide +kernel
  have hrun : (run step State.init es).map (fun s => (s.conn, s.hasClient)) = some (2, true) := by decide +kernel
  obtain ⟨s, hs, heq⟩ := Option.map_eq_some_iff.1 hrun
  exact ⟨hq, s, hs, congrArg Prod.fst heq, congrArg Prod.snd heq, isolated_of_quiet_accepts es s hq hs⟩

/-- The first client disconnects with its read request still queued; the second client receives the response. -/
theorem not_isolated :
    ¬ ∀ (es : List Event) (s : State), run step State.init es = some s → Isolated s.wire s.returned := by
  intro hall
  let hello : Message := ⟨makeHeader .hello 1 0 0 .success 0 0, []⟩
  let read : Message := ⟨makeHeader .mmioReadReq 2 0x1C 0xF .success 0 0, []⟩
  let rsp : Header := makeHeader .mmioReadRsp 2 0x1C 0 .success 0 0 kFlagIsResponse
  let ready : List PollRet := [.revents false false false true]
  let greet : List RxTurn → List Event := fun rx =>
    [.io .go, .io (.accept (some rx)), .io .go, .io .go, .io (.send ⟨ready, .wrote 64⟩),
      .io (.send ⟨[], .eintr⟩), .io .go]
  let leave : List Event :=
    [.io .go, .io (.wait ready), .io .go, .io .go, .io .go, .io (.wait [.revents false false true false]), .io .go,
      .io .go]
  let answer : List Event := [.rtl .poll, .rtl (.respond rsp []), .rtl .go, .rtl (.send ⟨ready, .wrote 64⟩)]
  let es : List Event :=
    greet [⟨ready, .data (hello.bytes ++ read.bytes)⟩] ++ leave ++ greet [⟨ready, .data hello.bytes⟩] ++ answer
  have hrun : (run step State.init es).map (fun s => s.wire.any (fun w => w.cause == .response 1 && w.conn == 2)) =
      some true := by decide +kernel
  obtain ⟨s, hs, hw⟩ := Option.map_eq_some_iff.1 hrun
  obtain ⟨w, hmem, hw⟩ := List.any_eq_true.1 hw
  rw [Bool.and_eq_true, beq_iff_eq, beq_iff_eq] at hw
  have hc := (hall es s hs).responses w hmem 1 hw.1
  rw [hw.2] at hc
  cases hc

end Ics
end Vip
