import PcieVip.Socket
/-!
# Framing — messages on a byte stream

`parseMessage` cuts one message off a byte string; `readMessage` does it on a connection, through `recvAll`, as
`HostClient::ReadMessage` and both read sites of `MiniIcsServer::IoThreadMain` do.  A read that succeeds is a parse of
the stream whatever the fragmentation (`readMessage_parse`), and on a healthy connection it succeeds whenever the
parse does (`readMessage_clean`).  `readLoop` is the read loop; the last theorem states it both ways.
-/
namespace Vip
namespace Ics

/-! ## On byte strings -/

def Message.bytes (m : Message) : List UInt8 := serializeMessage m.header m.payload

/-- One message off the front of a byte string: an accepted header and as many bytes as it announces. -/
def parseMessage (bs : List UInt8) : Option (Message × List UInt8) :=
  if bs.length < kHeaderSize then none
  else
    match deserializeHeader (bs.take kHeaderSize) with
    | .error _ => none
    | .ok h =>
      let body := bs.drop kHeaderSize
      if body.length < h.payloadLen.toNat then none
      else some (⟨h, body.take h.payloadLen.toNat⟩, body.drop h.payloadLen.toNat)

theorem Message.length_bytes (m : Message) : m.bytes.length = kHeaderSize + m.payload.length := by
  simp [Message.bytes, serializeMessage]

/-- **A parsed message is well formed, and is what stood at the front of the string.** -/
theorem parseMessage_exact {bs rest : List UInt8} {m : Message} (h : parseMessage bs = some (m, rest)) :
    m.WellFormed ∧ bs = m.bytes ++ rest := by
  unfold parseMessage at h
  split at h
  · cases h
  · rename_i hlen
    split at h
    · cases h
    · rename_i hdr hd
      dsimp only at h
      split at h
      · cases h
      · rename_i hbody
        cases h
        have hhdr : (bs.take kHeaderSize).length = kHeaderSize := by rw [List.length_take]; omega
        obtain ⟨-, -, hacc⟩ := (deserializeHeader_ok_iff _ hdr).1 hd
        refine ⟨⟨hacc, List.length_take_of_le (Nat.not_lt.1 hbody)⟩, ?_⟩
        · rw [Message.bytes, serializeMessage, serializeHeader_of_deserializeHeader _ hhdr hdr hd, List.append_assoc,
            List.take_append_drop, List.take_append_drop]

/-- **A well-formed message is parsed off whatever follows it.** -/
theorem parseMessage_bytes {m : Message} (hm : m.WellFormed) (rest : List UInt8) :
    parseMessage (m.bytes ++ rest) = some (m, rest) := by
  have hb : m.bytes ++ rest = serializeHeader m.header ++ (m.payload ++ rest) := by
    rw [Message.bytes, serializeMessage, List.append_assoc]
  have hlen := length_serializeHeader m.header
  have hpay := hm.payload
  have h1 : ¬ (serializeHeader m.header ++ (m.payload ++ rest)).length < kHeaderSize := by
    rw [List.length_append, hlen]; omega
  have h2 : ¬ (m.payload ++ rest).length < m.header.payloadLen.toNat := by
    rw [List.length_append, hpay]; omega
  unfold parseMessage
  rw [hb, if_neg h1, List.take_left' hlen, List.drop_left' hlen, deserializeHeader_serializeHeader _ hm.accepted]
  simp only [if_neg h2, List.take_left' hpay, List.drop_left' hpay]

theorem parseMessage_length {bs rest : List UInt8} {m : Message} (h : parseMessage bs = some (m, rest)) :
    rest.length < bs.length := by
  obtain ⟨-, hb⟩ := parseMessage_exact h
  rw [hb, List.length_append, Message.length_bytes, kHeaderSize]
  omega

/-- The messages of a byte string, up to the first malformed header or the first message cut short. -/
def parseStream (bs : List UInt8) : List Message :=
  match _h : parseMessage bs with
  | none           => []
  | some (m, rest) => m :: parseStream rest
termination_by bs.length
decreasing_by exact parseMessage_length _h

theorem parseStream_of_some {bs rest : List UInt8} {m : Message} (h : parseMessage bs = some (m, rest)) :
    parseStream bs = m :: parseStream rest := by
  rw [parseStream]
  split
  · rename_i hn; rw [hn] at h; cases h
  · rename_i hs; rw [hs] at h; cases h; rfl

/-! ## On a connection -/

inductive ReadEnd where
  | io (st : IoStatus)
  | codec (e : CodecError)
  deriving DecidableEq, Repr

structure ReadResult where
  message  : Except ReadEnd Message
  received : Nat
  rest     : List RxTurn

/-- The announced payload; none is asked for when none is announced. -/
def readPayload (h : Header) (rx : List RxTurn) : RecvResult :=
  if h.payloadLen > 0 then recvAll h.payloadLen.toNat rx else ⟨.ok, [], rx⟩

/-- `ReadMessage`: the header, its checks, then the announced payload.  `received` counts the bytes taken off the
connection. -/
def readMessage (rx : List RxTurn) : ReadResult :=
  let hdr := recvAll kHeaderSize rx
  if hdr.status ≠ .ok then ⟨.error (.io hdr.status), hdr.got.length, hdr.rest⟩
  else
    match deserializeHeader hdr.got with
    | .error e => ⟨.error (.codec e), hdr.got.length, hdr.rest⟩
    | .ok h =>
      let body := readPayload h hdr.rest
      ⟨if body.status ≠ .ok then .error (.io body.status) else .ok ⟨h, body.got⟩,
        hdr.got.length + body.got.length, body.rest⟩

theorem readPayload_eq (h : Header) (rx : List RxTurn) : readPayload h rx = recvAll h.payloadLen.toNat rx := by
  unfold readPayload
  split
  · rfl
  · rename_i hpos
    have h0 := UInt32.not_lt.1 hpos
    rw [UInt32.le_iff_toNat_le] at h0
    rw [Nat.le_zero.1 h0]
    cases rx <;> rfl

theorem readMessage_of_header {rx : List RxTurn} {h : Header} (hst : (recvAll kHeaderSize rx).status = .ok)
    (hd : deserializeHeader (recvAll kHeaderSize rx).got = .ok h) :
    readMessage rx =
      let body := recvAll h.payloadLen.toNat (recvAll kHeaderSize rx).rest
      ⟨if body.status ≠ .ok then .error (.io body.status) else .ok ⟨h, body.got⟩,
        (recvAll kHeaderSize rx).got.length + body.got.length, body.rest⟩ := by
  unfold readMessage
  simp only [hst, hd, ne_eq, not_true_eq_false, if_false, readPayload_eq]

theorem readMessage_ok {rx : List RxTurn} {m : Message} (h : (readMessage rx).message = .ok m) :
    (recvAll kHeaderSize rx).status = .ok ∧ deserializeHeader (recvAll kHeaderSize rx).got = .ok m.header ∧
      (recvAll m.header.payloadLen.toNat (recvAll kHeaderSize rx).rest).status = .ok ∧
      (recvAll m.header.payloadLen.toNat (recvAll kHeaderSize rx).rest).got = m.payload := by
  by_cases hst : (recvAll kHeaderSize rx).status = .ok
  · cases hd : deserializeHeader (recvAll kHeaderSize rx).got with
    | error e => simp only [readMessage, hst, hd, ne_eq, not_true_eq_false, if_false] at h; cases h
    | ok hdr =>
      rw [readMessage_of_header hst hd] at h
      dsimp only at h
      split at h
      · cases h
      · rename_i hb
        cases h
        exact ⟨hst, rfl, not_not.1 hb, rfl⟩
  · simp only [readMessage, ne_eq, hst, not_false_eq_true, if_true] at h; cases h

/-- **A message that was read is a parse of the stream**, however the stream was cut, and exactly its bytes were
taken. -/
theorem readMessage_parse {rx : List RxTurn} {m : Message} (h : (readMessage rx).message = .ok m) :
    parseMessage (streamOf rx) = some (m, streamOf (readMessage rx).rest) ∧
      (readMessage rx).received = m.bytes.length := by
  obtain ⟨hst, hd, hbst, hbgot⟩ := readMessage_ok h
  have hlen := recvAll_ok_length hst
  have hblen := recvAll_ok_length hbst
  have hstream := recvAll_stream rx kHeaderSize
  have hbody := recvAll_stream (recvAll kHeaderSize rx).rest m.header.payloadLen.toNat
  have hser := serializeHeader_of_deserializeHeader _ hlen m.header hd
  obtain ⟨-, -, hacc⟩ := (deserializeHeader_ok_iff _ m.header).1 hd
  have hwf : m.WellFormed := ⟨hacc, by rw [← hbgot, hblen]⟩
  rw [readMessage_of_header hst hd]
  dsimp only
  constructor
  · have hs : streamOf rx = m.bytes ++
        streamOf (recvAll m.header.payloadLen.toNat (recvAll kHeaderSize rx).rest).rest := by
      rw [← hstream, ← hbody, hbgot, Message.bytes, serializeMessage, hser, List.append_assoc]
    rw [hs, parseMessage_bytes hwf]
  · rw [Message.length_bytes, hlen, hbgot]

/-- **On a healthy connection a parse of the stream is read**, and the connection stays healthy. -/
theorem readMessage_clean {rx : List RxTurn} (hc : ∀ t ∈ rx, t.Clean) {m : Message} (hm : m.WellFormed)
    {rest : List UInt8} (hs : streamOf rx = m.bytes ++ rest) :
    (readMessage rx).message = .ok m ∧ streamOf (readMessage rx).rest = rest ∧
      ∀ t ∈ (readMessage rx).rest, t.Clean := by
  rw [Message.bytes, serializeMessage, List.append_assoc] at hs
  obtain ⟨hst, hgot, hsrest, hcl⟩ := recvAll_clean_eq hc hs (length_serializeHeader m.header)
  obtain ⟨hbst, hbgot, hbrest, hbcl⟩ := recvAll_clean_eq hcl hsrest hm.payload
  have hd : deserializeHeader (recvAll kHeaderSize rx).got = .ok m.header := by
    rw [hgot, deserializeHeader_serializeHeader _ hm.accepted]
  rw [readMessage_of_header hst hd]
  simp only [hbst, hbgot, ne_eq, not_true_eq_false, if_false]
  exact ⟨trivial, hbrest, hbcl⟩

/-! ## The read loop -/

structure LoopResult where
  messages : List Message
  consumed : Nat
  rest     : List RxTurn

/-- The read loop, for at most `k` messages: it ends at the first read that returns none.  `consumed` counts the bytes
taken by the messages returned, `rest` is the connection after the last read, failed or not. -/
def readLoop : Nat → List RxTurn → LoopResult
  | 0, rx     => ⟨[], 0, rx⟩
  | k + 1, rx =>
    let r := readMessage rx
    match r.message with
    | .error _ => ⟨[], 0, r.rest⟩
    | .ok m    =>
      let l := readLoop k r.rest
      ⟨m :: l.messages, r.received + l.consumed, l.rest⟩

def bytesOf (ms : List Message) : List UInt8 := ms.flatMap Message.bytes

theorem bytesOf_cons (m : Message) (ms : List Message) : bytesOf (m :: ms) = m.bytes ++ bytesOf ms := by
  simp [bytesOf]

theorem readMessage_of_nil {rx : List RxTurn} (h : streamOf rx = []) :
    ∃ e, (readMessage rx).message = .error e := by
  cases hm : (readMessage rx).message with
  | error e => exact ⟨e, rfl⟩
  | ok m =>
    have hp := (parseMessage_exact (readMessage_parse hm).1).2
    have hlen := congrArg List.length hp
    rw [h, List.length_append, Message.length_bytes, kHeaderSize, List.length_nil] at hlen
    omega

theorem readLoop_error {rx : List RxTurn} {e : ReadEnd} (h : (readMessage rx).message = .error e) (k : Nat) :
    readLoop (k + 1) rx = ⟨[], 0, (readMessage rx).rest⟩ := by
  simp only [readLoop, h]

theorem readLoop_ok {rx : List RxTurn} {m : Message} (h : (readMessage rx).message = .ok m) (k : Nat) :
    readLoop (k + 1) rx =
      ⟨m :: (readLoop k (readMessage rx).rest).messages,
        (readMessage rx).received + (readLoop k (readMessage rx).rest).consumed,
        (readLoop k (readMessage rx).rest).rest⟩ := by
  simp only [readLoop, h]

theorem readMessage_rest_nil {rx : List RxTurn} (h : streamOf rx = []) : streamOf (readMessage rx).rest = [] := by
  have hh := recvAll_stream rx kHeaderSize
  rw [h, List.append_eq_nil_iff] at hh
  unfold readMessage
  dsimp only
  split
  · exact hh.2
  · split
    · exact hh.2
    · rename_i hdr _
      have hb := recvAll_stream (recvAll kHeaderSize rx).rest hdr.payloadLen.toNat
      rw [hh.2, List.append_eq_nil_iff] at hb
      simpa only [readPayload_eq] using hb.2

theorem readLoop_bytesOf : (ms : List Message) → (∀ m ∈ ms, m.WellFormed) → (rx : List RxTurn) →
    (∀ t ∈ rx, t.Clean) → streamOf rx = bytesOf ms → (k : Nat) → ms.length ≤ k →
    (readLoop k rx).messages = ms ∧ (readLoop k rx).consumed = (bytesOf ms).length ∧ streamOf (readLoop k rx).rest = []
  | [], _, rx, _, hs, 0, _ => ⟨rfl, rfl, hs⟩
  | [], _, rx, _, hs, k + 1, _ => by
    obtain ⟨e, he⟩ := readMessage_of_nil hs
    rw [readLoop_error he]
    exact ⟨rfl, rfl, readMessage_rest_nil hs⟩
  | m :: ms, hwf, rx, hc, hs, k + 1, hk => by
    rw [bytesOf_cons] at hs
    obtain ⟨hm, hrest, hcl⟩ := readMessage_clean hc (hwf m List.mem_cons_self) hs
    obtain ⟨hms, hcons, hend⟩ := readLoop_bytesOf ms (fun m' h' => hwf m' (List.mem_cons_of_mem _ h'))
      (readMessage rx).rest hcl hrest k (Nat.le_of_succ_le_succ hk)
    rw [readLoop_ok hm]
    refine ⟨by rw [hms], ?_, hend⟩
    rw [(readMessage_parse hm).2, hcons, bytesOf_cons, List.length_append]

theorem bytesOf_readLoop : (k : Nat) → (rx : List RxTurn) →
    bytesOf (readLoop k rx).messages = (streamOf rx).take (readLoop k rx).consumed ∧
      (bytesOf (readLoop k rx).messages).length = (readLoop k rx).consumed
  | 0, rx => by simp [readLoop, bytesOf]
  | k + 1, rx => by
    cases hm : (readMessage rx).message with
    | error e => rw [readLoop_error hm]; simp [bytesOf]
    | ok m =>
      obtain ⟨htake, hlen⟩ := bytesOf_readLoop k (readMessage rx).rest
      obtain ⟨hp, hrecv⟩ := readMessage_parse hm
      have hs := (parseMessage_exact hp).2
      rw [readLoop_ok hm]
      dsimp only
      rw [bytesOf_cons, hs, hrecv]
      constructor
      · rw [List.take_length_add_append, ← htake]
      · rw [List.length_append, hlen]

/-- **Framing is lossless under any fragmentation.**  Forward: for well-formed messages and any way a healthy connection
may cut the concatenation of their encodings, with any retries in between, the loop returns exactly these messages and
takes exactly these bytes.  Converse: from any connection, broken ones included, what the loop returns encodes to the
bytes it took. -/
theorem readLoop_lossless :
    (∀ ms : List Message, (∀ m ∈ ms, m.WellFormed) → ∀ rx : List RxTurn, (∀ t ∈ rx, t.Clean) →
      streamOf rx = ms.flatMap (fun m => serializeMessage m.header m.payload) → ∀ k, ms.length ≤ k →
        (readLoop k rx).messages = ms ∧
        (readLoop k rx).consumed = (ms.flatMap (fun m => serializeMessage m.header m.payload)).length ∧
        streamOf (readLoop k rx).rest = []) ∧
    (∀ (k : Nat) (rx : List RxTurn),
      (readLoop k rx).messages.flatMap (fun m => serializeMessage m.header m.payload) =
        (streamOf rx).take (readLoop k rx).consumed ∧ (readLoop k rx).consumed ≤ (streamOf rx).length) := by
  constructor
  · intro ms hwf rx hc hs k hk
    exact readLoop_bytesOf ms hwf rx hc hs k hk
  · intro k rx
    obtain ⟨htake, hlen⟩ := bytesOf_readLoop k rx
    refine ⟨htake, ?_⟩
    have h := congrArg List.length htake
    rw [hlen, List.length_take] at h
    omega

theorem readLoop_lossless_split :
    let m : Message := ⟨makeHeader .mmioWriteReq 2 0x14 0 .success 0 4, [1, 0, 0, 0]⟩
    let rx : List RxTurn :=
      [⟨[.eintr, .revents false false false true], .eagain⟩,
        ⟨[.revents false false false true], .data (m.bytes.take 10)⟩,
        ⟨[.revents false false false true], .eintr⟩,
        ⟨[.revents false false true true], .data (m.bytes.drop 10 ++ m.bytes)⟩]
    (readLoop 5 rx).messages = [m, m] ∧ (readLoop 5 rx).consumed = 136 := by
  intro m rx
  have hm : m.WellFormed := ⟨⟨rfl, rfl, rfl, by decide⟩, rfl⟩
  obtain ⟨b, bs, hfront⟩ := List.exists_cons_of_ne_nil (show m.bytes.take 10 ≠ [] by decide +kernel)
  obtain ⟨b', bs', hback⟩ := List.exists_cons_of_ne_nil (show m.bytes.drop 10 ++ m.bytes ≠ [] by decide +kernel)
  have hclean : ∀ t ∈ rx, t.Clean := by
    intro t ht
    simp only [rx, List.mem_cons, List.not_mem_nil, or_false] at ht
    rcases ht with rfl | rfl | rfl | rfl
    · exact ⟨rfl, .inr (.inl rfl)⟩
    · exact ⟨rfl, .inr (.inr ⟨b, bs, congrArg RecvRet.data hfront⟩)⟩
    · exact ⟨rfl, .inl rfl⟩
    · exact ⟨rfl, .inr (.inr ⟨b', bs', congrArg RecvRet.data hback⟩)⟩
  obtain ⟨hms, hcons, -⟩ := readLoop_lossless.1 [m, m] (by simpa using hm) rx hclean (by decide +kernel) 5 (by decide)
  exact ⟨hms, hcons.trans (by decide +kernel)⟩

end Ics
end Vip
