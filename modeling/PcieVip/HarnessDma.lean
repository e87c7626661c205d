import PcieVip.LibWord
import PcieVip.Verilator
/-!
# HarnessDma — `Harness::DmaRead` and `DmaWrite`, tick by tick

The two functions that carry the request TLPs of the DMA engine to the host.  The engine is not part of the repository:
what it drives is a trace, one value of its outputs for each `Tick`, and may be anything.  The host answers each request
from all that was asked before.  `Served` records the ticks, the requests with their answers and the completions.

`Tlp` reads a request header in the layout of the engine, so that what the harness makes of it can be compared.
-/
namespace Vip
namespace Verilator

open Ics Word

/-! ## Request headers -/

namespace Tlp

/-- The low bit of the format field: the header has four DWs. -/
def fourDw (hdr : BitVec 128) : Bool := hdr.getLsbD 125

/-- The length field, where 0 stands for 1024. -/
def lenDw (hdr : BitVec 128) : Nat := if hdr.extractLsb' 96 10 = 0 then 1024 else (hdr.extractLsb' 96 10).toNat

def tag (hdr : BitVec 128) : BitVec 8 := hdr.extractLsb' 72 8

def lastBe (hdr : BitVec 128) : BitVec 4 := hdr.extractLsb' 68 4

def firstBe (hdr : BitVec 128) : BitVec 4 := hdr.extractLsb' 64 4

/-- The address: in the last two DWs of four, or in the third of three. -/
def address (hdr : BitVec 128) : BitVec 64 :=
  if fourDw hdr then hdr.extractLsb' 2 62 ++ 0#2 else (hdr.extractLsb' 34 30 ++ 0#2).setWidth 64

end Tlp

/-! ## The outputs of the engine -/

/-- What the harness reads of one channel of the engine after a tick. -/
structure DmaPins where
  descReady   : Bool := false
  reqValid    : Bool := false
  reqSop      : Bool := false
  reqEop      : Bool := false
  reqHdr      : BitVec 128 := 0
  reqData     : BitVec 256 := 0
  statusValid : Bool := false
  statusError : BitVec 4 := 0
  deriving DecidableEq, Repr

namespace DmaPins

/-- `{hdr[63:34], 2'b00}`, on 64 wires. -/
def reqAddr (p : DmaPins) : UInt64 := ⟨(p.reqHdr.extractLsb' 34 30 ++ 0#2).setWidth 64⟩

/-- `{6'd0, hdr[105:96], 2'b00}`, on 16 wires. -/
def reqLen (p : DmaPins) : UInt16 := ⟨(0#6 ++ p.reqHdr.extractLsb' 96 10 ++ 0#2).setWidth 16⟩

/-- `dma_wr_req_data0` to `data3`. -/
def word (p : DmaPins) (i : Nat) : BitVec 64 := p.reqData.extractLsb' (64 * i) 64

def readRequest (p : DmaPins) (simTime : UInt64) : Request :=
  ⟨.dmaReadReq, p.reqAddr, 0, [], p.reqLen.toUInt32, simTime, true⟩

/-- The bytes of the four words, and zeros after them. -/
def payload (p : DmaPins) : List UInt8 :=
  (List.range p.reqLen.toNat).map
    (fun j => if j < 32 then ⟨((p.word (j / 8)) >>> (8 * (j % 8))).setWidth 8⟩ else 0)

def writeRequest (p : DmaPins) (simTime : UInt64) : Request :=
  ⟨.dmaWriteReq, p.reqAddr, 0, p.payload, p.reqLen.toUInt32, simTime, true⟩

end DmaPins

/-! ## SendCompletion -/

structure Completion where
  hdrHi : BitVec 64
  hdrLo : BitVec 64
  data  : Nat → BitVec 64

/-- The data words; a byte past the end of the vector, which the source does not exclude, is 0 here. -/
def completionWords (data : List UInt8) (offset : Nat) : Nat → Nat → BitVec 64
  | 0     => fun _ => 0
  | i + 1 =>
    let words := completionWords data offset i
    let byte := (data.getD (offset + i) 0).toBitVec
    Function.update words (i / 8) (words (i / 8) ||| (byte.setWidth 64 <<< (8 * (i % 8))))

def makeCompletion (tag : UInt8) (byteCount : UInt16) (lowerAddr : UInt8) (data : List UInt8) (offset length : Nat)
    (error : Bool) : Completion where
  hdrHi := (0x4a#64 <<< 56) ||| (BitVec.ofNat 64 (length / 4) <<< 32) |||
    (byteCount.toBitVec.setWidth 64 &&& 0xfff#64) ||| (if error then 1#64 <<< 13 else 0)
  hdrLo := (tag.toBitVec.setWidth 64 <<< 40) ||| ((lowerAddr.toBitVec.setWidth 64 &&& 0x7f#64) <<< 32)
  data := completionWords data offset (min length 32)

namespace Completion

/-- `hdr[47:40]`. -/
def tag (c : Completion) : BitVec 8 := c.hdrLo.extractLsb' 40 8

/-- `hdr[75:64]`. -/
def byteCount (c : Completion) : Nat := (c.hdrHi.extractLsb' 0 12).toNat

/-- `hdr[105:96]`. -/
def lenDw (c : Completion) : Nat := (c.hdrHi.extractLsb' 32 10).toNat

def bytes (c : Completion) : List UInt8 := (List.range (4 * c.lenDw)).map (fun j => ⟨byteAt (c.data (j / 8)) (j % 8)⟩)

end Completion

/-! ## The two functions -/

/-- A host: it answers a request from all that was asked and answered before. -/
abbrev Host := List (Request × Option Message) → Request → Option Message

structure Served where
  ticks       : Nat := 0
  exchanges   : List (Request × Option Message) := []
  completions : List Completion := []

def Served.tick (s : Served) : Served := { s with ticks := s.ticks + 1 }

def Served.ask (s : Served) (host : Host) (r : Request) : Served :=
  { s with exchanges := s.exchanges ++ [(r, host s.exchanges r)] }

section Calls

variable (host : Host) (trace : Nat → DmaPins) (simTime : UInt64)

/-- The loop in which the descriptor is accepted, with the number of ticks before it; nothing else is looked at. -/
def acceptLoop : Nat → Nat → Option Nat
  | 0, _     => none
  | n + 1, t => if (trace t).descReady then some (t + 1) else acceptLoop n (t + 1)

def writeLoop : Nat → Served → Bool × Served
  | 0, s     => (false, s)
  | n + 1, s =>
    let p := trace s.ticks
    if p.reqValid then
      let r := p.writeRequest simTime
      if !isSuccess (host s.exchanges r) then (false, s.tick.ask host r)
      else if p.statusValid then (p.statusError = 0, s.tick.ask host r)
      else writeLoop n (s.tick.ask host r)
    else if p.statusValid then (p.statusError = 0, s.tick)
    else writeLoop n s.tick

def dmaWrite : Bool × Served :=
  match acceptLoop trace 1000 0 with
  | none   => (false, { ticks := 1000 })
  | some t => writeLoop host trace simTime 2000 { ticks := t }

/-- The completion after `sent` of `len` bytes; the address is read from the pins as they are by then. -/
def chunkAt (tag : UInt8) (len : Nat) (payload : List UInt8) (sent : Nat) (p : DmaPins) : Completion :=
  makeCompletion tag (UInt16.ofNat (len - sent)) ((p.reqAddr + UInt64.ofNat sent) &&& 0x7f).toUInt8 payload sent
    (min 32 (len - sent)) false

def sendChunks (tag : UInt8) (len : Nat) (payload : List UInt8) : Nat → Nat → Served → Served
  | 0, _, s        => s
  | n + 1, sent, s =>
    if sent < len then
      sendChunks tag len payload n (sent + min 32 (len - sent))
        { s.tick with completions := s.completions ++ [chunkAt tag len payload sent (trace (s.ticks - 1))] }
    else s

def answerRead (tag : UInt8) (p : DmaPins) (s : Served) : Served :=
  let rsp := host s.exchanges (p.readRequest simTime)
  let payload := (rsp.map (·.payload)).getD []
  let s := s.ask host (p.readRequest simTime)
  if isSuccess rsp then sendChunks trace tag p.reqLen.toNat payload p.reqLen.toNat 0 s
  else { s.tick with completions := s.completions ++ [makeCompletion tag 0 0 [] 0 4 true] }

def readLoop (tag : UInt8) : Nat → Served → Bool × Served
  | 0, s     => (false, s)
  | n + 1, s =>
    let p := trace s.ticks
    let s := if p.reqValid then answerRead host trace simTime tag p s.tick else s.tick
    -- the status is read from the pins as the completions left them
    let q := trace (s.ticks - 1)
    if q.statusValid then (q.statusError = 0, s) else readLoop tag n s

def dmaRead (tag : UInt8) : Bool × Served :=
  match acceptLoop trace 1000 0 with
  | none   => (false, { ticks := 1000 })
  | some t => readLoop host trace simTime tag 2000 { ticks := t }

def acceptTicks : Nat := (acceptLoop trace 1000 0).getD 1000

end Calls

/-! ## The requests of a trace -/

def requestCycles (trace : Nat → DmaPins) (a e : Nat) : List Nat :=
  (List.range' a (e - a)).filter (fun k => (trace k).reqValid)

section Cycles

variable {trace : Nat → DmaPins}

theorem mem_requestCycles {a e k : Nat} : k ∈ requestCycles trace a e ↔ a ≤ k ∧ k < e ∧ (trace k).reqValid = true := by
  rw [requestCycles, List.mem_filter, List.mem_range'_1]
  constructor
  · rintro ⟨⟨h1, h2⟩, h3⟩
    exact ⟨h1, by omega, h3⟩
  · rintro ⟨h1, h2, h3⟩
    exact ⟨⟨h1, by omega⟩, h3⟩

theorem requestCycles_append (trace : Nat → DmaPins) {a b e : Nat} (hab : a ≤ b) (hbe : b ≤ e) :
    requestCycles trace a e = requestCycles trace a b ++ requestCycles trace b e := by
  have hsplit : List.range' a (e - a) = List.range' a (b - a) ++ List.range' b (e - b) := by
    rw [show e - a = (b - a) + (e - b) by omega, ← List.range'_append_1, show a + (b - a) = b by omega]
  rw [requestCycles, hsplit, List.filter_append]
  rfl

theorem requestCycles_one (t : Nat) : requestCycles trace t (t + 1) = if (trace t).reqValid then [t] else [] := by
  rw [requestCycles, Nat.add_sub_cancel_left, List.range'_one, List.filter_cons]
  rfl

end Cycles

/-! ## What the harness reads -/

/-- The length in bytes, except that 1024 DWs read as none. -/
theorem reqLen_eq (p : DmaPins) : p.reqLen.toNat = 4 * (p.reqHdr.extractLsb' 96 10).toNat := by
  have hlt := (p.reqHdr.extractLsb' 96 10).isLt
  unfold DmaPins.reqLen
  change (BitVec.setWidth 16 (0#6 ++ p.reqHdr.extractLsb' 96 10 ++ 0#2)).toNat = _
  rw [BitVec.toNat_setWidth, BitVec.toNat_append, BitVec.toNat_append]
  simp only [BitVec.toNat_ofNat, Nat.zero_mod, Nat.shiftLeft_eq, Nat.zero_mul, Nat.zero_or, Nat.or_zero]
  omega

theorem reqLen_eq_iff (p : DmaPins) : p.reqLen.toNat = 4 * Tlp.lenDw p.reqHdr ↔ p.reqHdr.extractLsb' 96 10 ≠ 0 := by
  rw [reqLen_eq, Tlp.lenDw]
  by_cases h : p.reqHdr.extractLsb' 96 10 = 0
  · rw [if_pos h, h]
    exact ⟨fun heq => (by cases heq), fun hne => absurd rfl hne⟩
  · rw [if_neg h]
    exact ⟨fun _ => h, fun _ => rfl⟩

theorem reqAddr_eq_iff (p : DmaPins) :
    p.reqAddr.toBitVec = Tlp.address p.reqHdr ↔ Tlp.fourDw p.reqHdr = false ∨ Tlp.address p.reqHdr = 0 := by
  cases h4 : Tlp.fourDw p.reqHdr with
  | false =>
    rw [Tlp.address, h4]
    exact ⟨fun _ => .inl rfl, fun _ => rfl⟩
  | true  =>
    rw [Tlp.address, h4, if_pos rfl, ← BitVec.toNat_inj, ← BitVec.toNat_inj]
    have haddr : p.reqAddr.toBitVec.toNat = 4 * (p.reqHdr.toNat / 2 ^ 34 % 2 ^ 30) := by
      change ((p.reqHdr.extractLsb' 34 30 ++ 0#2).setWidth 64).toNat = _
      rw [BitVec.toNat_setWidth, BitVec.toNat_append, BitVec.extractLsb'_toNat, Nat.shiftRight_eq_div_pow]
      simp only [BitVec.toNat_ofNat, Nat.zero_mod, Nat.or_zero, Nat.shiftLeft_eq]
      omega
    have hspec : (p.reqHdr.extractLsb' 2 62 ++ 0#2).toNat = 4 * (p.reqHdr.toNat / 2 ^ 2 % 2 ^ 62) := by
      rw [BitVec.toNat_append, BitVec.extractLsb'_toNat, Nat.shiftRight_eq_div_pow]
      simp only [BitVec.toNat_ofNat, Nat.zero_mod, Nat.or_zero, Nat.shiftLeft_eq]
      omega
    -- what the harness reads is the upper part of the address
    have hupper : p.reqHdr.toNat / 2 ^ 34 % 2 ^ 30 = p.reqHdr.toNat / 2 ^ 2 % 2 ^ 62 / 2 ^ 32 := by
      rw [show (2 : Nat) ^ 34 = 2 ^ 2 * 2 ^ 32 from rfl, show (2 : Nat) ^ 62 = 2 ^ 32 * 2 ^ 30 from rfl,
        ← Nat.div_div_eq_div_mul, Nat.mod_mul_right_div_self]
    rw [haddr, hspec, hupper]
    change _ ↔ true = false ∨ 4 * (p.reqHdr.toNat / 2 ^ 2 % 2 ^ 62) = 0
    constructor
    · intro heq
      right
      omega
    · rintro (heq | heq)
      · cases heq
      · omega

theorem payload_byte (p : DmaPins) (j : Nat) :
    (((p.word (j / 8)) >>> (8 * (j % 8))).setWidth 8 : BitVec 8) = byteAt p.reqData j := by
  apply BitVec.eq_of_getLsbD_eq
  intro i hi
  have hk : 8 * (j % 8) + i < 64 := by omega
  have hadd : 64 * (j / 8) + (8 * (j % 8) + i) = 8 * j + i := by omega
  simp [DmaPins.word, byteAt, hi, hk, hadd]

/-! ## Completions -/

section Completions

variable (tag : UInt8) (byteCount : UInt16) (lowerAddr : UInt8) (data : List UInt8) (offset length : Nat) (error : Bool)

theorem completion_tag : (makeCompletion tag byteCount lowerAddr data offset length error).tag = tag.toBitVec := by
  apply BitVec.eq_of_getLsbD_eq
  intro i hi
  have h1 : 40 + i < 64 := by omega
  have h2 : ¬ 40 + i < 40 := by omega
  have h3 : ¬ 40 + i < 32 := by omega
  have hmask : (0x7f#64).getLsbD (40 + i - 32) = false := by
    rw [show (0x7f#64) = (BitVec.allOnes 7).setWidth 64 by decide, BitVec.getLsbD_setWidth, BitVec.getLsbD_allOnes]
    simp
    omega
  simp only [Completion.tag, makeCompletion, BitVec.getLsbD_extractLsb', BitVec.getLsbD_or, BitVec.getLsbD_shiftLeft,
    BitVec.getLsbD_and, BitVec.getLsbD_setWidth, hi, h1, h2, h3, hmask, decide_true, decide_false, Bool.not_false,
    Bool.true_and, Bool.and_false, Bool.or_false, Nat.add_sub_cancel_left]
  simp
  omega

theorem errorBit_eq {i : Nat} (hi : i ≠ 13) :
    (if error then 1#64 <<< 13 else (0 : BitVec 64)).getLsbD i = false := by
  cases error with
  | false => exact BitVec.getLsbD_zero
  | true  =>
    rw [if_pos rfl, BitVec.getLsbD_shiftLeft, BitVec.getLsbD_one]
    by_cases h : i < 13
    · simp [h]
    · simp [show i - 13 ≠ 0 by omega]

theorem completion_byteCount (h : byteCount.toNat < 4096) :
    (makeCompletion tag byteCount lowerAddr data offset length error).byteCount = byteCount.toNat := by
  have hbits : (makeCompletion tag byteCount lowerAddr data offset length error).hdrHi.extractLsb' 0 12 =
      byteCount.toBitVec.setWidth 12 := by
    apply BitVec.eq_of_getLsbD_eq
    intro i hi
    have h1 : i < 64 := by omega
    have h2 : i < 56 := by omega
    have h3 : i < 32 := by omega
    have hmask : (0xfff#64).getLsbD i = true := by
      rw [show (0xfff#64) = (BitVec.allOnes 12).setWidth 64 by decide, BitVec.getLsbD_setWidth, BitVec.getLsbD_allOnes]
      simp [h1, hi]
    have herror := errorBit_eq error (i := i) (by omega)
    simp only [makeCompletion, BitVec.getLsbD_extractLsb', BitVec.getLsbD_or, BitVec.getLsbD_shiftLeft,
      BitVec.getLsbD_and, BitVec.getLsbD_setWidth, Nat.zero_add, hi, h1, h2, h3, hmask, herror, decide_true,
      Bool.not_true, Bool.true_and, Bool.and_true, Bool.and_false, Bool.false_and, Bool.false_or, Bool.or_false]
  unfold Completion.byteCount
  rw [hbits, BitVec.toNat_setWidth]
  exact Nat.mod_eq_of_lt h

theorem completion_lenDw (h : length < 4096) :
    (makeCompletion tag byteCount lowerAddr data offset length error).lenDw = length / 4 := by
  have hbits : (makeCompletion tag byteCount lowerAddr data offset length error).hdrHi.extractLsb' 32 10 =
      BitVec.ofNat 10 (length / 4) := by
    apply BitVec.eq_of_getLsbD_eq
    intro i hi
    have h1 : 32 + i < 64 := by omega
    have h2 : 32 + i < 56 := by omega
    have h3 : ¬ 32 + i < 32 := by omega
    have hmask : (0xfff#64).getLsbD (32 + i) = false := by
      rw [show (0xfff#64) = (BitVec.allOnes 12).setWidth 64 by decide, BitVec.getLsbD_setWidth, BitVec.getLsbD_allOnes]
      simp [show ¬ 32 + i < 12 by omega]
    have herror := errorBit_eq error (i := 32 + i) (by omega)
    simp only [makeCompletion, BitVec.getLsbD_extractLsb', BitVec.getLsbD_or, BitVec.getLsbD_shiftLeft,
      BitVec.getLsbD_and, BitVec.getLsbD_ofNat, hi, h1, h2, h3, hmask, herror, decide_true, decide_false, Bool.not_true,
      Bool.not_false, Bool.true_and, Bool.and_false, Bool.false_and, Bool.false_or, Bool.or_false,
      Nat.add_sub_cancel_left, show i < 64 by omega]
  unfold Completion.lenDw
  rw [hbits, BitVec.toNat_ofNat]
  exact Nat.mod_eq_of_lt (by omega)

theorem byteAt_completionWords : ∀ (n q k : Nat), k < 8 →
    byteAt (completionWords data offset n q) k =
      if 8 * q + k < n then (data.getD (offset + (8 * q + k)) 0).toBitVec else 0#8
  | 0, q, k, _      => by simp [completionWords, byteAt]
  | n + 1, q, k, hk => by
    have ih := byteAt_completionWords n q k hk
    rw [completionWords]
    by_cases hq : q = n / 8
    · subst hq
      rw [Function.update_self, byteAt_or_shiftLeft _ _ hk (Nat.mod_lt n (by decide)), ih]
      by_cases hkn : k = n % 8
      · have h1 : 8 * (n / 8) + k = n := by omega
        have h2 : ¬ n < n := Nat.lt_irrefl n
        rw [if_pos hkn, h1, if_neg h2, if_pos (Nat.lt_succ_self n)]
        exact BitVec.zero_or
      · have h1 : 8 * (n / 8) + k < n + 1 ↔ 8 * (n / 8) + k < n := by omega
        rw [if_neg hkn, BitVec.or_zero]
        simp only [h1]
    · have h1 : 8 * q + k < n + 1 ↔ 8 * q + k < n := by omega
      rw [Function.update_of_ne hq, ih]
      simp only [h1]

theorem completion_bytes (hlen : length ≤ 32) (h4 : 4 ∣ length) (hdata : offset + length ≤ data.length) :
    (makeCompletion tag byteCount lowerAddr data offset length error).bytes = (data.drop offset).take length := by
  unfold Completion.bytes
  rw [completion_lenDw _ _ _ _ _ _ _ (by omega), Nat.mul_div_cancel' h4]
  apply List.ext_getElem
  · rw [List.length_map, List.length_range, List.length_take, List.length_drop]
    omega
  · intro j h1 h2
    rw [List.length_map, List.length_range] at h1
    have hj : 8 * (j / 8) + j % 8 = j := by omega
    have hmin : j < min length 32 := by omega
    rw [List.getElem_map, List.getElem_range, List.getElem_take, List.getElem_drop]
    apply UInt8.eq_of_toBitVec_eq
    dsimp only [makeCompletion]
    rw [byteAt_completionWords _ _ _ _ _ (Nat.mod_lt j (by decide)), hj, if_pos hmin, List.getD_eq_getElem?_getD,
      List.getElem?_eq_getElem (by omega), Option.getD_some]

end Completions

end Verilator
end Vip
