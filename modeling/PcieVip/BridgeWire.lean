import PcieVip.QemuWire
/-!
# BridgeWire — the cocotb bridge's copy of the wire format (`rtl/alex/mini_ics_tlp_bridge.py`)

The Python bridge leaves the layout to `struct` and keeps its fields as unbounded integers, so packing can fail and a
zero `transfer_len` stands for the payload's length.  `unpack_eq` and `pack_ofMics` state it against the other two.
-/
namespace Vip
namespace Bridge

open Bytes

def magic : Int := 0x5343494D
def version : Int := 2
def headerSize : Nat := 64

inductive PyError where
  | valueError (msg : String)
  | structError
  deriving DecidableEq, Repr

structure Header where
  msgType      : Int
  flags        : Int := 0
  payloadLen   : Int := 0
  txnId        : Int := 0
  simTimestamp : Int := 0
  address      : Int := 0
  byteEnable   : Int := 0
  status       : Int := 0
  transferLen  : Int := 0
  deriving DecidableEq, Repr

/-! ## `struct` on unsigned little-endian formats -/

def formatWidth : Char → Nat
  | 'H' => 2
  | 'I' => 4
  | 'Q' => 8
  | _   => 1

/-- `"<IHHHHIQQQQIIII"`. -/
def headerFormat : List Char := ['I', 'H', 'H', 'H', 'H', 'I', 'Q', 'Q', 'Q', 'Q', 'I', 'I', 'I', 'I']

/-- `struct.pack`: an argument outside its format's range, or a wrong number of arguments, is a `struct.error`. -/
def structPack : List Nat → List Int → Except PyError (List UInt8)
  | [], []           => .ok []
  | w :: ws, v :: vs =>
    if 0 ≤ v ∧ v < 256 ^ w then
      match structPack ws vs with
      | .ok bs   => .ok (leBytes w v.toNat ++ bs)
      | .error e => .error e
    else .error .structError
  | _, _             => .error .structError

def structUnpack (ws : List Nat) (raw : List UInt8) : Except PyError (List Int) :=
  if raw.length = ws.sum then .ok ((unpack ws raw).map Int.ofNat) else .error .structError

/-! ## The codec -/

/-- Python's `or` between integers. -/
def pyOr (a b : Int) : Int := if a ≠ 0 then a else b

def Header.pack (h : Header) : Except PyError (List UInt8) :=
  let length := pyOr h.transferLen h.payloadLen
  structPack (headerFormat.map formatWidth)
    [magic, version, h.msgType, h.flags, headerSize, h.payloadLen, h.txnId, h.simTimestamp, h.address, h.byteEnable,
     h.status, 0, length, 0]

def Header.unpack (raw : List UInt8) : Except PyError Header :=
  if raw.length ≠ headerSize then .error (.valueError "short Mini-ICS header")
  else
    match structUnpack (headerFormat.map formatWidth) raw with
    | .ok [magic', version', typ, flags, hlen, plen, txn, ts, addr, be, status, _, xfer, _] =>
      if magic' ≠ magic ∨ version' ≠ version ∨ hlen ≠ headerSize then
        .error (.valueError "invalid Mini-ICS v2 header")
      else if plen > 16 * 1024 * 1024 then .error (.valueError "payload too large")
      else .ok ⟨typ, flags, plen, txn, ts, addr, be, status, xfer⟩
    | .ok _    => .error .structError
    | .error e => .error e

/-! ## Against the other two codecs -/

def ofMics (m : Qemu.MicsHeader) : Header :=
  { msgType := m.type.toNat, flags := m.flags.toNat, payloadLen := m.payloadLen.toNat, txnId := m.txnId.toNat
    simTimestamp := m.simTimestamp.toNat, address := m.address.toNat, byteEnable := m.byteEnable.toNat
    status := m.status.toNat, transferLen := m.transferLen.toNat }

theorem structPack_ofNat : ∀ (fs : List (Nat × Nat)), (∀ f ∈ fs, f.2 < 256 ^ f.1) →
    structPack (fs.map Prod.fst) ((fs.map Prod.snd).map Int.ofNat) = .ok (pack fs)
  | [], _      => rfl
  | f :: fs, h => by
    have hf : (0 : Int) ≤ Int.ofNat f.2 ∧ Int.ofNat f.2 < 256 ^ f.1 := by
      have := h f List.mem_cons_self
      constructor
      · exact Int.natCast_nonneg _
      · simpa using (by exact_mod_cast this : ((f.2 : Nat) : Int) < ((256 ^ f.1 : Nat) : Int))
    have ih := structPack_ofNat fs (fun g hg => h g (List.mem_cons_of_mem _ hg))
    simp only [List.map_cons, structPack]
    rw [if_pos hf, ih]
    rfl

/-- **The bridge packs what the device model encodes**, once its default for the transfer length does not apply. -/
theorem pack_ofMics (m : Qemu.MicsHeader) (h : m.transferLen ≠ 0 ∨ m.payloadLen = 0) :
    (ofMics m).pack = .ok (Qemu.micsEncodeHeader m) := by
  have hlen : pyOr m.transferLen.toNat m.payloadLen.toNat = m.transferLen.toNat := by
    unfold pyOr
    by_cases ht : m.transferLen = 0
    · have hp := h.resolve_left (fun hne => hne ht)
      simp [ht, hp]
    · have hne : ((m.transferLen.toNat : Nat) : Int) ≠ 0 := fun h0 => ht (UInt32.toNat_inj.1 (by simpa using h0))
      rw [if_pos hne]
  have hpack := structPack_ofNat (Ics.wireWidths.zip m.toIcs.fields) m.toIcs.fields_lt
  rw [Qemu.micsEncodeHeader_eq, Ics.serializeHeader_eq_pack, ← hpack]
  simp only [Header.pack, ofMics]
  rw [hlen]
  rfl

theorem unpack_ok_iff (raw : List UInt8) (hlen : raw.length = Ics.kHeaderSize) (p : Header) :
    (Header.unpack raw).toOption = some p ↔
      (Ics.headerAt raw).Accepted ∧ p = ofMics (Qemu.ofIcs (Ics.headerAt raw)) := by
  have hraw : raw.length = (headerFormat.map formatWidth).sum := hlen
  have hws : headerFormat.map formatWidth = Ics.wireWidths := rfl
  unfold Header.unpack
  rw [if_neg (fun h => h hlen), structUnpack, if_pos hraw, hws, ← Ics.headerAt_fields]
  generalize Ics.headerAt raw = h
  simp only [Ics.Header.fields, List.map_cons, List.map_nil]
  have hmagic : Int.ofNat h.magic.toNat = magic ↔ h.magic = Ics.kProtocolMagic := by
    rw [← UInt32.toNat_inj]; exact Int.ofNat_inj
  have hversion : Int.ofNat h.version.toNat = version ↔ h.version = Ics.kProtocolVersion := by
    rw [← UInt16.toNat_inj]; exact Int.ofNat_inj
  have hhlen : Int.ofNat h.headerLen.toNat = headerSize ↔ h.headerLen.toNat = Ics.kHeaderSize := Int.ofNat_inj
  have hplen : Int.ofNat h.payloadLen.toNat > 16 * 1024 * 1024 ↔ ¬ h.payloadLen ≤ Ics.kMaxPayloadSize := by
    rw [UInt32.le_iff_toNat_le, Nat.not_le]; exact Int.ofNat_lt
  split
  · rename_i hbad
    constructor
    · intro hp; cases hp
    · rintro ⟨ha, -⟩
      rcases hbad with hb | hb | hb
      · exact absurd (hmagic.2 ha.magic) hb
      · exact absurd (hversion.2 ha.version) hb
      · exact absurd (hhlen.2 ha.headerLen) hb
  · rename_i hgood
    simp only [not_or, not_not] at hgood
    obtain ⟨hm, hv, hl⟩ := hgood
    split
    · rename_i hbig
      constructor
      · intro hp; cases hp
      · rintro ⟨ha, -⟩; exact absurd ha.payloadLen (hplen.1 hbig)
    · rename_i hbig
      constructor
      · intro hp
        exact ⟨⟨hmagic.1 hm, hversion.1 hv, hhlen.1 hl, not_not.1 (fun hc => hbig (hplen.2 hc))⟩,
          (Option.some.inj hp).symm⟩
      · rintro ⟨-, rfl⟩; rfl

/-- **The bridge accepts the same buffers and reads the same fields** as the C++ decoder. -/
theorem unpack_eq (raw : List UInt8) (hlen : raw.length = Ics.kHeaderSize) :
    (Header.unpack raw).toOption = (Ics.deserializeHeader raw).toOption.map (fun h => ofMics (Qemu.ofIcs h)) :=
  Ics.eq_deserializeHeader_map _ raw hlen _ (unpack_ok_iff raw hlen)

/-! ## The three codecs -/

/-- The three codecs agree: on every header-sized buffer all three reject, or all three accept and read the same nine
fields; and nine fields in range, with a transfer length or no payload, are written as the same 64 bytes. -/
theorem header_codecs_agree :
    (∀ buf : List UInt8, buf.length = Ics.kHeaderSize →
      ((∃ e, Ics.deserializeHeader buf = .error e) ∧ Qemu.micsDecodeHeader buf = none ∧
        (∃ e, Header.unpack buf = .error e)) ∨
      (∃ h m p, Ics.deserializeHeader buf = .ok h ∧ Qemu.micsDecodeHeader buf = some m ∧ Header.unpack buf = .ok p ∧
        m = Qemu.ofIcs h ∧ p = ofMics m)) ∧
    (∀ m : Qemu.MicsHeader, (m.transferLen ≠ 0 ∨ m.payloadLen = 0) →
      Ics.serializeHeader m.toIcs = Qemu.micsEncodeHeader m ∧ (ofMics m).pack = .ok (Qemu.micsEncodeHeader m)) := by
  refine ⟨fun buf hlen => ?_, fun m hm => ⟨(Qemu.micsEncodeHeader_eq m).symm, pack_ofMics m hm⟩⟩
  have hq := Qemu.micsDecodeHeader_eq buf hlen
  have hb := unpack_eq buf hlen
  cases hd : Ics.deserializeHeader buf with
  | error e =>
    rw [hd] at hq hb
    refine .inl ⟨⟨e, rfl⟩, hq, ?_⟩
    cases hu : Header.unpack buf with
    | error e' => exact ⟨e', rfl⟩
    | ok p => rw [hu] at hb; cases hb
  | ok h =>
    rw [hd] at hq hb
    cases hu : Header.unpack buf with
    | error e' => rw [hu] at hb; cases hb
    | ok p =>
      rw [hu] at hb
      exact .inr ⟨h, Qemu.ofIcs h, p, rfl, hq, rfl, rfl, Option.some.inj hb⟩

theorem header_codecs_agree_dmaRead :
    let m : Qemu.MicsHeader := ⟨7, 0, 0, 9, 15, 0x100000, 0, 0, 64⟩
    ((ofMics m).pack = .ok (Qemu.micsEncodeHeader m)) ∧
      (∃ h m' p, Ics.deserializeHeader (Qemu.micsEncodeHeader m) = .ok h ∧
        Qemu.micsDecodeHeader (Qemu.micsEncodeHeader m) = some m' ∧
        Header.unpack (Qemu.micsEncodeHeader m) = .ok p ∧ m' = Qemu.ofIcs h ∧ p = ofMics m') := by
  intro m
  refine ⟨(header_codecs_agree.2 m (.inl (by decide))).2, ?_⟩
  have hlen : (Qemu.micsEncodeHeader m).length = Ics.kHeaderSize := by
    rw [Qemu.micsEncodeHeader_eq, Ics.length_serializeHeader]
  refine (header_codecs_agree.1 (Qemu.micsEncodeHeader m) hlen).resolve_left ?_
  rintro ⟨⟨e, he⟩, -, -⟩
  rw [Qemu.micsEncodeHeader_eq, Ics.deserializeHeader_serializeHeader _ ⟨rfl, rfl, rfl, by decide⟩] at he
  cases he

end Bridge
end Vip
