import PcieVip.HostClient
/-!
# ClientRequests — the host client's requests and what it takes for their answers

`SendRequestAndWait` sends a request under a fresh identifier and returns the next message on the connection.  Its
comment says that the identifier of that message is verified; it is not, and requests of the endpoint and late answers
come over the same connection.  `answer_own_iff` says for which unread bytes the message is the answer, and
`session_in_order` that over a whole session answers go to requests by their order alone.
-/
namespace Vip
namespace HostClient

open Ics

/-! ## SendRequestAndWait -/

structure Call where
  type       : MessageType
  address    : UInt64 := 0
  byteEnable : UInt64 := 0
  payload    : List UInt8 := []
  now        : UInt64 := 0

def Call.request (c : Call) (txnId : UInt64) : Message :=
  ⟨makeHeader c.type txnId c.address c.byteEnable .success c.now (UInt32.ofNat c.payload.length), c.payload⟩

structure Exchange where
  request : Message
  wrote   : List UInt8
  answer  : Option Message
  txnGen  : TransactionIdGenerator
  rest    : List RxTurn

def sendRequestAndWait (g : TransactionIdGenerator) (c : Call) (tx : List TxTurn) (rx : List RxTurn) : Exchange :=
  let id := g.next
  let request := c.request id.1
  let sent := sendAll (serializeMessage request.header request.payload) tx
  if sent.status ≠ .ok then ⟨request, sent.wrote, none, id.2, rx⟩
  else
    let r := readMessage rx
    ⟨request, sent.wrote, r.message.toOption, id.2, r.rest⟩

/-- The message that is returned bears the identifier of the request. -/
def Exchange.Own (e : Exchange) : Prop := ∀ m, e.answer = some m → m.header.txnId = e.request.header.txnId

section Answer

variable (g : TransactionIdGenerator) (c : Call) {tx : List TxTurn} {rx : List RxTurn}

@[simp] theorem sendRequestAndWait_txnGen : (sendRequestAndWait g c tx rx).txnGen = g.next.2 := by
  unfold sendRequestAndWait
  dsimp only
  split <;> rfl

@[simp] theorem sendRequestAndWait_request : (sendRequestAndWait g c tx rx).request = c.request g.nextId := by
  unfold sendRequestAndWait
  dsimp only
  split <;> rfl

theorem answer_parse {m : Message} (h : (sendRequestAndWait g c tx rx).answer = some m) :
    ∃ rest, parseMessage (streamOf rx) = some (m, rest) := by
  unfold sendRequestAndWait at h
  dsimp only at h
  split at h
  · cases h
  · cases hr : (readMessage rx).message with
    | error e =>
      rw [hr] at h
      cases h
    | ok m'   =>
      rw [hr] at h
      cases h
      exact ⟨_, (readMessage_parse hr).1⟩

theorem answer_healthy (htx : takesAll (c.request g.nextId).bytes.length tx = true) (hc : ∀ t ∈ rx, t.Clean)
    {m : Message} (hm : m.WellFormed) {rest : List UInt8} (hs : streamOf rx = m.bytes ++ rest) :
    (sendRequestAndWait g c tx rx).answer = some m ∧ streamOf (sendRequestAndWait g c tx rx).rest = rest ∧
      ∀ t ∈ (sendRequestAndWait g c tx rx).rest, t.Clean := by
  obtain ⟨hmsg, hrest, hcl⟩ := readMessage_clean hc hm hs
  have hsent : (sendAll (serializeMessage (c.request g.next.1).header (c.request g.next.1).payload) tx).status = .ok :=
    (sendAll_ok_iff tx (c.request g.nextId).bytes).2 htx
  unfold sendRequestAndWait
  dsimp only
  rw [if_neg (not_not_intro hsent), hmsg]
  exact ⟨rfl, hrest, hcl⟩

end Answer

/-! ## Connections that carry given bytes -/

def polledReady : List PollRet := [.revents false false false true]

theorem exists_takesAll (n : Nat) : ∃ tx, takesAll n tx = true := by
  refine ⟨[⟨polledReady, .wrote n⟩], ?_⟩
  cases n with
  | zero   => rfl
  | succ n => simp [takesAll, polledReady, pollFor]

theorem exists_clean (bs : List UInt8) : ∃ rx, (∀ t ∈ rx, RxTurn.Clean t) ∧ streamOf rx = bs := by
  cases bs with
  | nil       => exact ⟨[], nofun, rfl⟩
  | cons b bs =>
    refine ⟨[⟨polledReady, .data (b :: bs)⟩], fun t ht => ?_, List.append_nil _⟩
    rw [List.mem_singleton.1 ht]
    exact ⟨rfl, .inr (.inr ⟨b, bs, rfl⟩)⟩

/-- **The client returns its own answer only, however its requests are taken and the bytes arrive, exactly if the
message that the unread bytes begin with bears the identifier of the request.** -/
theorem answer_own_iff (g : TransactionIdGenerator) (c : Call) (bs : List UInt8) :
    (∀ tx rx, streamOf rx = bs → (sendRequestAndWait g c tx rx).Own) ↔
      ∀ m rest, parseMessage bs = some (m, rest) → m.header.txnId = g.nextId := by
  constructor
  · intro h m rest hp
    obtain ⟨hm, hbs⟩ := parseMessage_exact hp
    obtain ⟨tx, htx⟩ := exists_takesAll (c.request g.nextId).bytes.length
    obtain ⟨rx, hc, hs⟩ := exists_clean bs
    have hown := h tx rx hs m (answer_healthy g c htx hc hm (hs.trans hbs)).1
    rwa [sendRequestAndWait_request] at hown
  · intro h tx rx hs m hm
    obtain ⟨rest, hp⟩ := answer_parse g c hm
    rw [sendRequestAndWait_request]
    exact h m rest (by rw [← hs, hp])

/-- Before the answer to the reset comes a DMA request of the endpoint, numbered by the endpoint: it is returned. -/
theorem answer_foreign :
    ∃ (g : TransactionIdGenerator) (c : Call) (m a : Message) (tx : List TxTurn) (rx : List RxTurn),
      m.header.isType .dmaReadReq = true ∧ a.header.txnId = g.nextId ∧ streamOf rx = m.bytes ++ a.bytes ∧
        (sendRequestAndWait g c tx rx).answer = some m ∧ ¬ (sendRequestAndWait g c tx rx).Own := by
  let m : Message := ⟨makeHeader .dmaReadReq 1 0 0 .success 0 0 kFlagNone 64, []⟩
  let a : Message := ⟨makeHeader .resetRsp 2 0 0 .success 0 0 kFlagIsResponse, []⟩
  obtain ⟨tx, htx⟩ := exists_takesAll (Call.request ⟨.resetReq, 0, 0, [], 0⟩ 2).bytes.length
  obtain ⟨rx, hc, hs⟩ := exists_clean (m.bytes ++ a.bytes)
  have hans := (answer_healthy ⟨2⟩ ⟨.resetReq, 0, 0, [], 0⟩ htx hc (m := m) ⟨⟨rfl, rfl, rfl, by decide⟩, rfl⟩ hs).1
  refine ⟨⟨2⟩, ⟨.resetReq, 0, 0, [], 0⟩, m, a, tx, rx, rfl, rfl, hs, hans, fun hown => ?_⟩
  have hid := hown m hans
  rw [sendRequestAndWait_request] at hid
  exact absurd hid (show (1 : UInt64) ≠ 2 by decide)

/-! ## Sessions -/

def session (g : TransactionIdGenerator) : List (Call × List TxTurn) → List RxTurn → List Exchange
  | [], _              => []
  | (c, tx) :: cs, rx  =>
    let e := sendRequestAndWait g c tx rx
    e :: session e.txnGen cs e.rest

def Taken (g : TransactionIdGenerator) : List (Call × List TxTurn) → Prop
  | []            => True
  | (c, tx) :: cs => takesAll (c.request g.nextId).bytes.length tx = true ∧ Taken g.next.2 cs

theorem answer_exhausted (g : TransactionIdGenerator) (c : Call) (tx : List TxTurn) {rx : List RxTurn}
    (h : streamOf rx = []) :
    (sendRequestAndWait g c tx rx).answer = none ∧ streamOf (sendRequestAndWait g c tx rx).rest = [] := by
  unfold sendRequestAndWait
  dsimp only
  split
  · exact ⟨rfl, h⟩
  · obtain ⟨e, he⟩ := readMessage_of_nil h
    rw [he]
    exact ⟨rfl, readMessage_rest_nil h⟩

theorem session_exhausted : ∀ (cs : List (Call × List TxTurn)) (g : TransactionIdGenerator) (rx : List RxTurn),
    streamOf rx = [] → ∀ e ∈ session g cs rx, e.answer = none
  | [], _, _, _, _, he              => by cases he
  | (c, tx) :: cs, g, rx, h, e, he => by
    obtain ⟨hnone, hrest⟩ := answer_exhausted g c tx h
    rw [session, List.mem_cons] at he
    rcases he with he | he
    · rw [he]
      exact hnone
    · exact session_exhausted cs _ _ hrest e he

/-- **On a healthy connection the calls of a session return the messages in the order in which they come**, whatever
identifiers these bear. -/
theorem session_in_order : ∀ (cs : List (Call × List TxTurn)) (g : TransactionIdGenerator) (ms : List Message)
    (rx : List RxTurn), Taken g cs → (∀ m ∈ ms, m.WellFormed) → (∀ t ∈ rx, t.Clean) → streamOf rx = bytesOf ms →
    ∀ (i : Nat) (e : Exchange), (session g cs rx)[i]? = some e → e.answer = ms[i]?
  | [], _, _, _, _, _, _, _, i, e, he                    => by cases he
  | c :: cs, g, [], rx, htx, hwf, hc, hs, i, e, he       => by
    rw [List.getElem?_nil]
    exact session_exhausted (c :: cs) g rx hs e (List.mem_of_getElem? he)
  | (c, tx) :: cs, g, m :: ms, rx, htx, hwf, hc, hs, i, e, he => by
    rw [bytesOf_cons] at hs
    obtain ⟨hans, hrest, hcl⟩ := answer_healthy g c htx.1 hc (hwf m List.mem_cons_self) hs
    cases i with
    | zero   =>
      rw [session, List.getElem?_cons_zero] at he
      rw [← Option.some.inj he]
      exact hans
    | succ i =>
      rw [session, List.getElem?_cons_succ, sendRequestAndWait_txnGen] at he
      rw [List.getElem?_cons_succ]
      exact session_in_order cs _ ms _ htx.2 (fun m' hm' => hwf m' (List.mem_cons_of_mem _ hm')) hcl hrest i e he

end HostClient
end Vip
