import PcieVip.Protocol
/-!
# QemuWire — the device model's copy of the wire format (`hw/misc/pcie-vip.c` of the QEMU patch)

`pcie-vip.c` carries its own header codec: fewer fields in memory (the constants and the reserved words are not kept),
the same 64 bytes on the wire.  `micsEncodeHeader_eq` and `micsDecodeHeader_eq` state it against the C++ codec.
-/
namespace Vip
namespace Qemu

open Bytes

def micsMagic : UInt32 := 0x5343494d
def micsVersion : UInt16 := 2
def micsHeaderSize : UInt16 := 64
def micsMaxPayload : Nat := 16 * 2 ^ 20
def micsFlagResponse : UInt16 := 1

structure MicsHeader where
  type         : UInt16
  flags        : UInt16
  payloadLen   : UInt32
  txnId        : UInt64
  simTimestamp : UInt64
  address      : UInt64
  byteEnable   : UInt64
  status       : UInt32
  transferLen  : UInt32
  deriving DecidableEq, Repr

structure MicsMessage where
  h       : MicsHeader
  payload : List UInt8
  deriving DecidableEq, Repr

/-! ## The byte accessors -/

def getLe16 (p : List UInt8) : UInt16 := (p.getD 0 0).toUInt16 ||| ((p.getD 1 0).toUInt16 <<< 8)

def getLe32 (p : List UInt8) : UInt32 :=
  (p.getD 0 0).toUInt32 ||| ((p.getD 1 0).toUInt32 <<< 8) ||| ((p.getD 2 0).toUInt32 <<< 16) |||
    ((p.getD 3 0).toUInt32 <<< 24)

def getLe64 (p : List UInt8) : UInt64 := (getLe32 p).toUInt64 ||| ((getLe32 (p.drop 4)).toUInt64 <<< 32)

def putLe16 (p : List UInt8) (off : Nat) (value : UInt16) : List UInt8 :=
  overlay p off [value.toUInt8, (value >>> 8).toUInt8]

def putLe32 (p : List UInt8) (off : Nat) (value : UInt32) : List UInt8 :=
  overlay p off [value.toUInt8, (value >>> 8).toUInt8, (value >>> 16).toUInt8, (value >>> 24).toUInt8]

def putLe64 (p : List UInt8) (off : Nat) (value : UInt64) : List UInt8 :=
  putLe32 (putLe32 p off value.toUInt32) (off + 4) (value >>> 32).toUInt32

/-! ## The codec -/

def micsEncodeHeader (h : MicsHeader) : List UInt8 :=
  let out := List.replicate 64 0
  let out := putLe32 out 0 micsMagic
  let out := putLe16 out 4 micsVersion
  let out := putLe16 out 6 h.type
  let out := putLe16 out 8 h.flags
  let out := putLe16 out 10 micsHeaderSize
  let out := putLe32 out 12 h.payloadLen
  let out := putLe64 out 16 h.txnId
  let out := putLe64 out 24 h.simTimestamp
  let out := putLe64 out 32 h.address
  let out := putLe64 out 40 h.byteEnable
  let out := putLe32 out 48 h.status
  putLe32 out 56 h.transferLen

def micsDecodeHeader (buf : List UInt8) : Option MicsHeader :=
  if getLe32 (buf.drop 0) ≠ micsMagic ∨ getLe16 (buf.drop 4) ≠ micsVersion ∨ getLe16 (buf.drop 10) ≠ micsHeaderSize then
    none
  else
    let h : MicsHeader :=
      { type         := getLe16 (buf.drop 6)
        flags        := getLe16 (buf.drop 8)
        payloadLen   := getLe32 (buf.drop 12)
        txnId        := getLe64 (buf.drop 16)
        simTimestamp := getLe64 (buf.drop 24)
        address      := getLe64 (buf.drop 32)
        byteEnable   := getLe64 (buf.drop 40)
        status       := getLe32 (buf.drop 48)
        transferLen  := getLe32 (buf.drop 56) }
    if h.payloadLen.toNat ≤ micsMaxPayload then some h else none

/-! ## Against the C++ codec -/

/-- The header the C++ side would hold: the constants filled in, the reserved words zero. -/
def MicsHeader.toIcs (h : MicsHeader) : Ics.Header :=
  { msgType := h.type, flags := h.flags, payloadLen := h.payloadLen, txnId := h.txnId
    simTimestamp := h.simTimestamp, address := h.address, byteEnable := h.byteEnable, status := h.status
    transferLen := h.transferLen }

def ofIcs (h : Ics.Header) : MicsHeader :=
  { type := h.msgType, flags := h.flags, payloadLen := h.payloadLen, txnId := h.txnId
    simTimestamp := h.simTimestamp, address := h.address, byteEnable := h.byteEnable, status := h.status
    transferLen := h.transferLen }

theorem getLe64_eq (p : List UInt8) : getLe64 p = Ics.getU64 p := by
  apply UInt64.toNat_inj.1
  have hlo : (getLe32 p).toNat = leNat (p.take 4) := Ics.getU32_eq p
  have hhi : (getLe32 (p.drop 4)).toNat = leNat ((p.drop 4).take 4) := Ics.getU32_eq (p.drop 4)
  have hlt := (getLe32 p).toNat_lt
  have hhlt := (getLe32 (p.drop 4)).toNat_lt
  have hsum : (getLe64 p).toNat = (getLe32 (p.drop 4)).toNat * 2 ^ 32 + (getLe32 p).toNat := by
    have hmod : (getLe32 (p.drop 4)).toNat * 2 ^ 32 % 2 ^ 64 = (getLe32 (p.drop 4)).toNat * 2 ^ 32 :=
      Nat.mod_eq_of_lt (by omega)
    rw [getLe64, UInt64.toNat_or, UInt64.toNat_shiftLeft, UInt32.toNat_toUInt64, UInt32.toNat_toUInt64,
      show (32 : UInt64).toNat % 64 = 32 from rfl, Nat.shiftLeft_eq, hmod, Nat.or_comm, ← Nat.shiftLeft_eq,
      ← Nat.shiftLeft_add_eq_or_of_lt hlt]
  rw [hsum, Ics.getU64_eq, hlo, hhi, List.take_add (i := 4) (j := 4), leNat_append]
  rcases Nat.lt_or_ge p.length 4 with hp | hp
  · simp [List.drop_of_length_le (Nat.le_of_lt hp), leNat]
  · rw [List.length_take_of_le hp]
    omega

theorem putLe16_eq (p : List UInt8) (off : Nat) (v : UInt16) : putLe16 p off v = overlay p off (leBytes 2 v.toNat) := by
  rw [← Ics.putU16_eq, putLe16, Ics.putU16]
  simp [and_byte]

theorem putLe32_eq (p : List UInt8) (off : Nat) (v : UInt32) : putLe32 p off v = overlay p off (leBytes 4 v.toNat) := by
  rw [← Ics.putU32_eq, putLe32, Ics.putU32]
  simp [and_byte]

/-- **The device model encodes what the C++ side would**: the reserved words are the blanks it never writes. -/
theorem micsEncodeHeader_eq (h : MicsHeader) : micsEncodeHeader h = Ics.serializeHeader h.toIcs := by
  have hhi : ∀ v : UInt64, (v >>> 32).toUInt32.toNat = v.toNat / 256 ^ 4 := by
    intro v
    have hv := v.toNat_lt
    rw [UInt64.toNat_toUInt32, UInt64.toNat_shiftRight, show (32 : UInt64).toNat % 64 = 32 from rfl,
      Nat.shiftRight_eq_div_pow]
    omega
  have hlo : ∀ v : UInt64, leBytes 4 v.toUInt32.toNat = leBytes 4 v.toNat := by
    intro v
    rw [UInt64.toNat_toUInt32]
    simp only [leBytes, List.cons.injEq, and_true, ← UInt8.toNat_inj, UInt8.toNat_ofNat']
    omega
  have hgap : ∀ done : List UInt8, done ++ List.replicate 12 0 = (done ++ leBytes 4 0) ++ List.replicate 8 0 := by
    intro done
    rw [List.append_assoc]; rfl
  have hsplit : ∀ v : Nat, leBytes 8 v = leBytes 4 v ++ leBytes 4 (v / 256 ^ 4) := leBytes_add 4 4
  simp only [micsEncodeHeader, putLe64, putLe16_eq, putLe32_eq, hhi, hlo]
  rw [show List.replicate 64 (0 : UInt8) = [] ++ List.replicate 64 0 from rfl]
  simp (disch := simp) only [overlay_blank, length_leBytes]
  -- the word at 52 is never written: what is left of the blank buffer stands there
  rw [show 64 - 4 - 2 - 2 - 2 - 2 - 4 - 4 - 4 - 4 - 4 - 4 - 4 - 4 - 4 - 4 = 12 from rfl, hgap]
  simp (disch := simp) only [overlay_blank, length_leBytes]
  rw [Ics.serializeHeader_eq_pack]
  simp only [pack, Ics.wireWidths, Ics.Header.fields, MicsHeader.toIcs, hsplit, List.zip_cons_cons,
    List.zip_nil_right, List.append_assoc, List.nil_append, List.append_nil]
  rfl

theorem micsDecodeHeader_some_iff (buf : List UInt8) (m : MicsHeader) :
    micsDecodeHeader buf = some m ↔ (Ics.headerAt buf).Accepted ∧ m = ofIcs (Ics.headerAt buf) := by
  have h64 := getLe64_eq
  have hmax : ∀ n : UInt32, n.toNat ≤ micsMaxPayload ↔ n ≤ Ics.kMaxPayloadSize := fun n => by
    rw [UInt32.le_iff_toNat_le]; rfl
  have hsize : ∀ n : UInt16, n = micsHeaderSize ↔ n.toNat = Ics.kHeaderSize := fun n => UInt16.toNat_inj.symm
  unfold micsDecodeHeader
  split
  · rename_i hbad
    constructor
    · intro h; cases h
    · rintro ⟨ha, -⟩
      rcases hbad with h | h | h
      · exact absurd ha.magic h
      · exact absurd ha.version h
      · exact absurd ((hsize _).2 ha.headerLen) h
  · rename_i hgood
    simp only [not_or, not_not] at hgood
    obtain ⟨hm, hv, hl⟩ := hgood
    dsimp only
    simp only [h64]
    split
    · rename_i hp
      constructor
      · intro h
        exact ⟨⟨hm, hv, (hsize _).1 hl, (hmax _).1 hp⟩, (Option.some.inj h).symm⟩
      · rintro ⟨-, rfl⟩; rfl
    · rename_i hp
      constructor
      · intro h; cases h
      · rintro ⟨ha, -⟩; exact absurd ((hmax _).2 ha.payloadLen) hp

/-- **The device model accepts the same buffers and keeps the same fields** as the C++ decoder. -/
theorem micsDecodeHeader_eq (buf : List UInt8) (hlen : buf.length = Ics.kHeaderSize) :
    micsDecodeHeader buf = (Ics.deserializeHeader buf).toOption.map ofIcs :=
  Ics.eq_deserializeHeader_map ofIcs buf hlen _ (micsDecodeHeader_some_iff buf)

end Qemu
end Vip
