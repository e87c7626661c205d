import PcieVip.LibBytes
/-!
# Protocol — the Mini-ICS wire protocol (`mini-ics/src/protocol.cpp`)

The fixed 64-byte header, written and read byte by byte at hand-computed offsets, and the message built from it and a
payload.  `serializeHeader_eq_pack` and `deserializeHeader_eq` relate the hand-written offsets to one layout
(`wireWidths`); from it come the two round trips, `deserializeHeader_serializeHeader` on a standard header and
`serializeHeader_of_deserializeHeader` on an accepted buffer.
-/
namespace Vip
namespace Ics

open Bytes

def kProtocolVersion : UInt16 := 2
def kProtocolMagic : UInt32 := 0x5343494D
def kHeaderSize : Nat := 64
def kMaxPayloadSize : UInt32 := 16 * 1024 * 1024

inductive MessageType where
  | hello | helloAck | mmioReadReq | mmioReadRsp | mmioWriteReq | mmioWriteRsp | dmaReadReq | dmaReadRsp
  | dmaWriteReq | dmaWriteRsp | msiX | resetReq | resetRsp | error | shutdown
  deriving DecidableEq, Repr

def MessageType.code : MessageType → UInt16
  | .hello        => 1
  | .helloAck     => 2
  | .mmioReadReq  => 3
  | .mmioReadRsp  => 4
  | .mmioWriteReq => 5
  | .mmioWriteRsp => 6
  | .dmaReadReq   => 7
  | .dmaReadRsp   => 8
  | .dmaWriteReq  => 9
  | .dmaWriteRsp  => 10
  | .msiX         => 11
  | .resetReq     => 12
  | .resetRsp     => 13
  | .error        => 14
  | .shutdown     => 15

theorem MessageType.code_injective (a b : MessageType) (h : a.code = b.code) : a = b := by
  revert h; cases a <;> cases b <;> decide

inductive StatusCode where
  | success | errorGeneric | errorBadMagic | errorBadVersion | errorBadLength | errorTimeout | errorOutOfBounds
  | errorInvalidAddress | errorNotConnected | errorDisconnected | errorUnknownTransaction | errorUnsupported
  deriving DecidableEq, Repr

def StatusCode.code : StatusCode → UInt32
  | .success                 => 0
  | .errorGeneric            => 1
  | .errorBadMagic           => 2
  | .errorBadVersion         => 3
  | .errorBadLength          => 4
  | .errorTimeout            => 5
  | .errorOutOfBounds        => 6
  | .errorInvalidAddress     => 7
  | .errorNotConnected       => 8
  | .errorDisconnected       => 9
  | .errorUnknownTransaction => 10
  | .errorUnsupported        => 11

def kFlagNone : UInt16 := 0
def kFlagIsResponse : UInt16 := 1

/-- The in-memory header.  `msgType` and `status` stay raw, so that unknown values survive decoding. -/
structure Header where
  magic        : UInt32 := kProtocolMagic
  version      : UInt16 := kProtocolVersion
  msgType      : UInt16 := 0
  flags        : UInt16 := kFlagNone
  headerLen    : UInt16 := 64
  payloadLen   : UInt32 := 0
  txnId        : UInt64 := 0
  simTimestamp : UInt64 := 0
  address      : UInt64 := 0
  byteEnable   : UInt64 := 0
  status       : UInt32 := 0
  reserved     : UInt32 := 0
  transferLen  : UInt32 := 0
  reserved2    : UInt32 := 0
  deriving DecidableEq, Repr

/-- `header.Type() == t`: the raw field holds the enumerator's value. -/
def Header.isType (h : Header) (t : MessageType) : Bool := h.msgType == t.code

def Header.isStatus (h : Header) (st : StatusCode) : Bool := h.status == st.code

theorem Header.isType_iff (h : Header) (t : MessageType) : h.isType t = true ↔ h.msgType = t.code := by
  simp [Header.isType]

theorem Header.isType_unique {h : Header} {a b : MessageType} (ha : h.isType a = true) (hb : h.isType b = true) :
    a = b :=
  MessageType.code_injective a b (((h.isType_iff a).1 ha).symm.trans ((h.isType_iff b).1 hb))

theorem Header.isType_of_ne {h : Header} {a b : MessageType} (ha : h.isType a = true) (hab : a ≠ b) :
    h.isType b = false :=
  Bool.eq_false_iff.2 (fun hb => hab (Header.isType_unique ha hb))

structure Message where
  header  : Header
  payload : List UInt8
  deriving DecidableEq, Repr

inductive CodecError where
  | badMagic | badVersion | badHeaderLength | badPayloadLength | truncated
  deriving DecidableEq, Repr

/-! ## The byte accessors -/

def putU16 (dst : List UInt8) (off : Nat) (v : UInt16) : List UInt8 :=
  overlay dst off [(v &&& 0xFF).toUInt8, ((v >>> 8) &&& 0xFF).toUInt8]

def putU32 (dst : List UInt8) (off : Nat) (v : UInt32) : List UInt8 :=
  overlay dst off [(v &&& 0xFF).toUInt8, ((v >>> 8) &&& 0xFF).toUInt8, ((v >>> 16) &&& 0xFF).toUInt8,
    ((v >>> 24) &&& 0xFF).toUInt8]

def putU64 (dst : List UInt8) (off : Nat) (v : UInt64) : List UInt8 :=
  overlay dst off ((List.range 8).map (fun i => ((v >>> (8 * UInt64.ofNat i)) &&& 0xFF).toUInt8))

def getU16 (src : List UInt8) : UInt16 :=
  (src.getD 0 0).toUInt16 ||| ((src.getD 1 0).toUInt16 <<< 8)

def getU32 (src : List UInt8) : UInt32 :=
  (src.getD 0 0).toUInt32 ||| ((src.getD 1 0).toUInt32 <<< 8) ||| ((src.getD 2 0).toUInt32 <<< 16) |||
    ((src.getD 3 0).toUInt32 <<< 24)

def getU64 (src : List UInt8) : UInt64 :=
  (List.range 8).foldl (fun v i => v ||| ((src.getD i 0).toUInt64 <<< (8 * UInt64.ofNat i))) 0

/-! ## The codec -/

def serializeHeader (h : Header) : List UInt8 :=
  let buf := List.replicate kHeaderSize 0
  let buf := putU32 buf 0 h.magic
  let buf := putU16 buf 4 h.version
  let buf := putU16 buf 6 h.msgType
  let buf := putU16 buf 8 h.flags
  let buf := putU16 buf 10 h.headerLen
  let buf := putU32 buf 12 h.payloadLen
  let buf := putU64 buf 16 h.txnId
  let buf := putU64 buf 24 h.simTimestamp
  let buf := putU64 buf 32 h.address
  let buf := putU64 buf 40 h.byteEnable
  let buf := putU32 buf 48 h.status
  let buf := putU32 buf 52 h.reserved
  let buf := putU32 buf 56 h.transferLen
  putU32 buf 60 h.reserved2

/-- The fields as they lie in the buffer, before any check. -/
def headerAt (data : List UInt8) : Header :=
  { magic        := getU32 (data.drop 0)
    version      := getU16 (data.drop 4)
    msgType      := getU16 (data.drop 6)
    flags        := getU16 (data.drop 8)
    headerLen    := getU16 (data.drop 10)
    payloadLen   := getU32 (data.drop 12)
    txnId        := getU64 (data.drop 16)
    simTimestamp := getU64 (data.drop 24)
    address      := getU64 (data.drop 32)
    byteEnable   := getU64 (data.drop 40)
    status       := getU32 (data.drop 48)
    reserved     := getU32 (data.drop 52)
    transferLen  := getU32 (data.drop 56)
    reserved2    := getU32 (data.drop 60) }

def deserializeHeader (data : List UInt8) : Except CodecError Header :=
  if data.length < kHeaderSize then .error .truncated
  else
    let h := headerAt data
    if h.magic ≠ kProtocolMagic then .error .badMagic
    else if h.version ≠ kProtocolVersion then .error .badVersion
    else if h.headerLen.toNat ≠ kHeaderSize then .error .badHeaderLength
    else if h.payloadLen > kMaxPayloadSize then .error .badPayloadLength
    else .ok h

def serializeMessage (h : Header) (payload : List UInt8) : List UInt8 := serializeHeader h ++ payload

/-- `__builtin_popcountll`. -/
def popcountll (v : UInt64) : UInt32 :=
  UInt32.ofNat ((List.range 64).filter (fun i => v.toNat.testBit i)).length

def makeHeader (type : MessageType) (txnId address byteEnable : UInt64) (status : StatusCode)
    (simTimestamp : UInt64) (payloadLen : UInt32) (flags : UInt16 := kFlagNone) (transferLen : UInt32 := 0) : Header :=
  { msgType := type.code, flags, payloadLen, txnId, simTimestamp, address, byteEnable, status := status.code
    transferLen :=
      if transferLen = 0 then
        if type = .mmioReadReq ∧ payloadLen = 0 then popcountll byteEnable else payloadLen
      else transferLen }

theorem isStatus_makeHeader (t : MessageType) (x a b : UInt64) (st : StatusCode) (n : UInt64) (p : UInt32) (f : UInt16)
    (l : UInt32) {st' : StatusCode} : (makeHeader t x a b st n p f l).isStatus st' = decide (st = st') := by
  cases st <;> cases st' <;> rfl

/-! ## The accessors are little-endian -/

theorem u16_byte (v k : UInt16) (hk : k.toNat < 16) :
    ((v >>> k) &&& 0xFF).toUInt8 = UInt8.ofNat (v.toNat / 2 ^ k.toNat) := by
  apply UInt8.toNat_inj.1
  have h := Nat.and_two_pow_sub_one_eq_mod (v.toNat / 2 ^ k.toNat) 8
  simp only [UInt16.toNat_toUInt8, UInt16.toNat_and, UInt16.toNat_shiftRight, UInt8.toNat_ofNat', Nat.mod_eq_of_lt hk,
    Nat.shiftRight_eq_div_pow]
  rw [show (0xFF : UInt16).toNat = 2 ^ 8 - 1 from rfl, h, Nat.mod_mod]

theorem u32_byte (v k : UInt32) (hk : k.toNat < 32) :
    ((v >>> k) &&& 0xFF).toUInt8 = UInt8.ofNat (v.toNat / 2 ^ k.toNat) := by
  apply UInt8.toNat_inj.1
  have h := Nat.and_two_pow_sub_one_eq_mod (v.toNat / 2 ^ k.toNat) 8
  simp only [UInt32.toNat_toUInt8, UInt32.toNat_and, UInt32.toNat_shiftRight, UInt8.toNat_ofNat', Nat.mod_eq_of_lt hk,
    Nat.shiftRight_eq_div_pow]
  rw [show (0xFF : UInt32).toNat = 2 ^ 8 - 1 from rfl, h, Nat.mod_mod]

theorem u64_byte (v k : UInt64) (hk : k.toNat < 64) :
    ((v >>> k) &&& 0xFF).toUInt8 = UInt8.ofNat (v.toNat / 2 ^ k.toNat) := by
  apply UInt8.toNat_inj.1
  have h := Nat.and_two_pow_sub_one_eq_mod (v.toNat / 2 ^ k.toNat) 8
  simp only [UInt64.toNat_toUInt8, UInt64.toNat_and, UInt64.toNat_shiftRight, UInt8.toNat_ofNat', Nat.mod_eq_of_lt hk,
    Nat.shiftRight_eq_div_pow]
  rw [show (0xFF : UInt64).toNat = 2 ^ 8 - 1 from rfl, h, Nat.mod_mod]

theorem putU16_eq (dst : List UInt8) (off : Nat) (v : UInt16) :
    putU16 dst off v = overlay dst off (leBytes 2 v.toNat) := by
  have h0 : (v &&& 0xFF).toUInt8 = UInt8.ofNat v.toNat := by simpa using u16_byte v 0 (by decide)
  simp only [putU16, leBytes, h0, u16_byte v 8 (by decide)]
  rfl

theorem putU32_eq (dst : List UInt8) (off : Nat) (v : UInt32) :
    putU32 dst off v = overlay dst off (leBytes 4 v.toNat) := by
  have h0 : (v &&& 0xFF).toUInt8 = UInt8.ofNat v.toNat := by simpa using u32_byte v 0 (by decide)
  simp only [putU32, leBytes, h0, u32_byte v 8 (by decide), u32_byte v 16 (by decide), u32_byte v 24 (by decide),
    Nat.div_div_eq_div_mul]
  rfl

theorem putU64_eq (dst : List UInt8) (off : Nat) (v : UInt64) :
    putU64 dst off v = overlay dst off (leBytes 8 v.toNat) := by
  have hr : (List.range 8).map (fun i => ((v >>> (8 * UInt64.ofNat i)) &&& 0xFF).toUInt8) =
      (List.range 8).map (fun i => UInt8.ofNat (v.toNat / 2 ^ (8 * i))) := by
    apply List.map_congr_left
    intro i hi
    have hi : i < 8 := List.mem_range.1 hi
    have hk : (8 * UInt64.ofNat i).toNat = 8 * i := by simp; omega
    rw [u64_byte v _ (by omega), hk]
  simp only [putU64, hr, leBytes, Nat.div_div_eq_div_mul]
  simp [List.range_succ]

theorem getU16_eq (src : List UInt8) : (getU16 src).toNat = leNat (src.take 2) := by
  rw [← orBytes_eq_leNat]
  simp [getU16, orBytes, List.range_succ, Nat.shiftLeft_eq, byte_mul_mod]

theorem getU32_eq (src : List UInt8) : (getU32 src).toNat = leNat (src.take 4) := by
  rw [← orBytes_eq_leNat]
  simp [getU32, orBytes, List.range_succ, Nat.shiftLeft_eq, byte_mul_mod]

theorem getU64_eq (src : List UInt8) : (getU64 src).toNat = leNat (src.take 8) := by
  rw [← orBytes_eq_leNat]
  simp [getU64, orBytes, List.range_succ, Nat.shiftLeft_eq, byte_mul_mod]

/-! ## The offsets are one layout -/

def wireWidths : List Nat := [4, 2, 2, 2, 2, 4, 8, 8, 8, 8, 4, 4, 4, 4]

def Header.fields (h : Header) : List Nat :=
  [h.magic.toNat, h.version.toNat, h.msgType.toNat, h.flags.toNat, h.headerLen.toNat, h.payloadLen.toNat,
   h.txnId.toNat, h.simTimestamp.toNat, h.address.toNat, h.byteEnable.toNat, h.status.toNat, h.reserved.toNat,
   h.transferLen.toNat, h.reserved2.toNat]

theorem Header.fields_injective {a b : Header} (h : a.fields = b.fields) : a = b := by
  rcases a with ⟨⟩; rcases b with ⟨⟩
  simpa [Header.fields, UInt16.toNat_inj, UInt32.toNat_inj, UInt64.toNat_inj] using h

theorem Header.fields_lt (h : Header) : ∀ f ∈ wireWidths.zip h.fields, f.2 < 256 ^ f.1 := by
  simp only [wireWidths, Header.fields, List.zip_cons_cons, List.zip_nil_right, List.forall_mem_cons]
  refine ⟨h.magic.toNat_lt, h.version.toNat_lt, h.msgType.toNat_lt, h.flags.toNat_lt, h.headerLen.toNat_lt,
    h.payloadLen.toNat_lt, h.txnId.toNat_lt, h.simTimestamp.toNat_lt, h.address.toNat_lt, h.byteEnable.toNat_lt,
    h.status.toNat_lt, h.reserved.toNat_lt, h.transferLen.toNat_lt, h.reserved2.toNat_lt, ?_⟩
  simp

theorem serializeHeader_eq_pack (h : Header) : serializeHeader h = pack (wireWidths.zip h.fields) := by
  simp only [serializeHeader, putU16_eq, putU32_eq, putU64_eq]
  rw [show List.replicate kHeaderSize (0 : UInt8) = [] ++ List.replicate 64 0 from rfl]
  simp (disch := simp) only [overlay_blank, length_leBytes]
  simp [pack, wireWidths, Header.fields]

theorem headerAt_fields (data : List UInt8) : (headerAt data).fields = unpack wireWidths data := by
  simp [headerAt, Header.fields, getU16_eq, getU32_eq, getU64_eq, wireWidths, unpack, List.drop_drop]

@[simp] theorem length_serializeHeader (h : Header) : (serializeHeader h).length = kHeaderSize := by
  simp [serializeHeader_eq_pack, length_pack, wireWidths, Header.fields, kHeaderSize]

/-- **A serialized header reads back field for field**, whatever follows it. -/
theorem headerAt_serializeHeader (h : Header) (rest : List UInt8) : headerAt (serializeHeader h ++ rest) = h := by
  apply Header.fields_injective
  rw [headerAt_fields, serializeHeader_eq_pack]
  exact unpack_pack (wireWidths.zip h.fields) rest h.fields_lt

/-- **A header-sized buffer is what its fields serialize to**, the reserved words included. -/
theorem serializeHeader_headerAt (data : List UInt8) (hlen : data.length = kHeaderSize) :
    serializeHeader (headerAt data) = data := by
  rw [serializeHeader_eq_pack, headerAt_fields]
  exact pack_unpack wireWidths data hlen

/-! ## What the decoder accepts -/

/-- What `deserializeHeader` checks of the fields. -/
structure Header.Accepted (h : Header) : Prop where
  magic      : h.magic = kProtocolMagic
  version    : h.version = kProtocolVersion
  headerLen  : h.headerLen.toNat = kHeaderSize
  payloadLen : h.payloadLen ≤ kMaxPayloadSize

theorem deserializeHeader_ok_iff (data : List UInt8) (h : Header) :
    deserializeHeader data = .ok h ↔ kHeaderSize ≤ data.length ∧ h = headerAt data ∧ h.Accepted := by
  unfold deserializeHeader
  split
  · rename_i hlen
    constructor
    · intro hd; cases hd
    · rintro ⟨hge, _⟩; omega
  · rename_i hlen
    constructor
    · intro hd
      dsimp only at hd
      repeat' split at hd
      any_goals cases hd
      rename_i hm hv hl hp
      exact ⟨by omega, rfl, ⟨not_not.1 hm, not_not.1 hv, not_not.1 hl, UInt32.not_lt.1 hp⟩⟩
    · rintro ⟨_, rfl, ha⟩
      have hp : ¬ (headerAt data).payloadLen > kMaxPayloadSize := UInt32.not_lt.2 ha.payloadLen
      simp [ha.magic, ha.version, ha.headerLen, hp]

/-- **A decoder that accepts exactly the checked headers, reading them through `f`, is this decoder followed by
`f`.** -/
theorem eq_deserializeHeader_map {β : Type} (f : Header → β) (data : List UInt8) (hlen : data.length = kHeaderSize)
    (o : Option β) (h : ∀ b, o = some b ↔ (headerAt data).Accepted ∧ b = f (headerAt data)) :
    o = (deserializeHeader data).toOption.map f := by
  apply Option.ext
  intro b
  rw [h b]
  cases hd : deserializeHeader data with
  | error e =>
    constructor
    · rintro ⟨ha, -⟩
      rw [(deserializeHeader_ok_iff data _).2 ⟨Nat.le_of_eq hlen.symm, rfl, ha⟩] at hd
      cases hd
    · intro hb; cases hb
  | ok h' =>
    obtain ⟨-, rfl, ha⟩ := (deserializeHeader_ok_iff data h').1 hd
    constructor
    · rintro ⟨-, rfl⟩; rfl
    · intro hb; exact ⟨ha, (Option.some.inj hb).symm⟩

/-- **A standard header survives the round trip.** -/
theorem deserializeHeader_serializeHeader (h : Header) (ha : h.Accepted) :
    deserializeHeader (serializeHeader h) = .ok h := by
  rw [deserializeHeader_ok_iff]
  have hat := headerAt_serializeHeader h []
  rw [List.append_nil] at hat
  exact ⟨Nat.le_of_eq (length_serializeHeader h).symm, hat.symm, ha⟩

/-- **An accepted buffer of header size is the serialization of what was accepted.** -/
theorem serializeHeader_of_deserializeHeader (data : List UInt8) (hlen : data.length = kHeaderSize) (h : Header)
    (hd : deserializeHeader data = .ok h) : serializeHeader h = data := by
  obtain ⟨_, rfl, _⟩ := (deserializeHeader_ok_iff data h).1 hd
  exact serializeHeader_headerAt data hlen

structure Message.WellFormed (m : Message) : Prop where
  accepted : m.header.Accepted
  payload  : m.payload.length = m.header.payloadLen.toNat

end Ics
end Vip
