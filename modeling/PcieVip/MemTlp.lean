import PcieVip.LibField
import PcieVip.MmioFsm
/-!
# MemTlp — the three builders of memory TLP headers

`make_mem_tlp` of `mini_ics_alex_tb` assigns the parts of a header one after the other, `make_tlp` of
`alex_qemu_verilator_top` is `makeHdr`, and `rtl/alex/tlp_bfm.py` ors masked fields into an unbounded integer and
patches the format.  All three are one layout (`layout`), from which the properties of a `MemoryTlp` read its fields
back.
-/
namespace Vip
namespace Alex

open Word Fields

/-! ## mini_ics_alex_tb -/

/-- `address[1:0] + length` has 32 bits. -/
def firstBe (address : BitVec 64) (length : BitVec 32) : BitVec 4 :=
  let o := (address.extractLsb' 0 2).setWidth 32
  bits (fun i => decide (o ≤ BitVec.ofNat 32 i ∧ BitVec.ofNat 32 i < o + length)) 4

/-- The data is an argument that is not used. -/
def makeMemTlp (isWrite : Bool) (address : BitVec 64) (length tag requesterId : BitVec 32) : BitVec 128 :=
  let h : BitVec 128 := 0
  let h := putBits h 125 (if isWrite then 2#3 else 0#3)
  let h := putBits h 120 0#5
  let h := putBits h 96 1#10
  let h := putBits h 80 (requesterId.extractLsb' 0 16)
  let h := putBits h 72 (tag.extractLsb' 0 8)
  let h := putBits h 68 (firstBe address length)
  let h := putBits h 64 (firstBe address length)
  let h := putBits h 34 (address.extractLsb' 2 30)
  putBits h 32 0#2

/-! ## tlp_bfm.py -/

namespace Bfm

def memType : Int := 0
def fmt3Dw : Int := 0
def fmt3DwData : Int := 2

def set (value : Int) (high low : Nat) (field : Int) : Int := orField value low (high - low + 1) field

structure MemoryTlp where
  header : Int
  data   : Int := 0
  deriving DecidableEq, Repr

namespace MemoryTlp

def isWrite (t : MemoryTlp) : Bool := Int.land (t.header >>> (125 : Nat)) 0x7 == fmt3DwData

def address (t : MemoryTlp) : Int :=
  if Int.land (t.header >>> (125 : Nat)) 0x1 ≠ 0 then Int.land t.header (Int.lnot 0x3)
  else Int.land (t.header >>> (34 : Nat)) (((1 : Int) <<< (30 : Nat)) - 1) <<< (2 : Nat)

def firstBe (t : MemoryTlp) : Int := Int.land (t.header >>> (64 : Nat)) 0xf

def requesterId (t : MemoryTlp) : Int := Int.land (t.header >>> (80 : Nat)) 0xffff

end MemoryTlp

def memoryRead (address : Int) (requesterId : Int := 0) (tag : Int := 0) (byteEnable : Int := 0xf) : MemoryTlp :=
  let h : Int := 0
  let h := set h 127 125 fmt3Dw
  let h := set h 124 120 memType
  let h := set h 105 96 1
  let h := set h 95 80 requesterId
  let h := set h 79 72 tag
  let h := set h 71 68 byteEnable
  let h := set h 67 64 byteEnable
  let h := set h 63 34 (address >>> (2 : Nat))
  { header := h }

def memoryWrite (address data : Int) (requesterId : Int := 0) (tag : Int := 0) (byteEnable : Int := 0xf) :
    MemoryTlp :=
  let h := (memoryRead address requesterId tag byteEnable).header
  let h := Int.land h (Int.lnot ((0x7 : Int) <<< (125 : Nat)))
  let h := set h 127 125 fmt3DwData
  { header := h, data := Int.land data 0xffffffff }

end Bfm

/-! ## The layout -/

/-- A header of three DWs for one DW of data, as a number. -/
def layout (fmt requesterId tag be address : Nat) : Nat :=
  fmt * 2 ^ 125 + 2 ^ 96 + requesterId * 2 ^ 80 + tag * 2 ^ 72 + be * 2 ^ 68 + be * 2 ^ 64 + address * 2 ^ 34

theorem toNat_fmt (isWrite : Bool) : (if isWrite then 2#3 else 0#3).toNat = if isWrite then 2 else 0 := by
  cases isWrite <;> rfl

theorem toNat_makeHdr (isWrite : Bool) (address : BitVec 64) (length : BitVec 4) (tag : BitVec 8) :
    (makeHdr isWrite address length tag).toNat =
      layout (if isWrite then 2 else 0) 0 tag.toNat (byteEnable (address.toNat % 4) length.toNat).toNat
        (address.extractLsb' 2 30).toNat := by
  simp only [makeHdr, toNat_append_add, toNat_fmt, layout, BitVec.toNat_ofNat]
  omega

theorem toNat_makeMemTlp (isWrite : Bool) (address : BitVec 64) (length tag requesterId : BitVec 32) :
    (makeMemTlp isWrite address length tag requesterId).toNat =
      layout (if isWrite then 2 else 0) (requesterId.extractLsb' 0 16).toNat (tag.extractLsb' 0 8).toNat
        (firstBe address length).toNat (address.extractLsb' 2 30).toNat := by
  have hfmt := toNat_fmt isWrite
  have hrid := (requesterId.extractLsb' 0 16).isLt
  have htag := (tag.extractLsb' 0 8).isLt
  have hbe := (firstBe address length).isLt
  have h := toNat_putBits (w := 128) (v := 0) (a := 0) rfl 125 (if isWrite then 2#3 else 0#3) (by decide) (by decide)
  have h := toNat_putBits h 120 0#5 (by decide) (by rw [hfmt]; split <;> decide)
  have h := toNat_putBits h 96 1#10 (by decide) (by rw [hfmt]; split <;> decide)
  have h := toNat_putBits h 80 (requesterId.extractLsb' 0 16) (by decide) (by omega)
  have h := toNat_putBits h 72 (tag.extractLsb' 0 8) (by decide) (by omega)
  have h := toNat_putBits h 68 (firstBe address length) (by decide) (by omega)
  have h := toNat_putBits h 64 (firstBe address length) (by decide) (by omega)
  have h := toNat_putBits h 34 (address.extractLsb' 2 30) (by decide) (by omega)
  have h := toNat_putBits h 32 0#2 (by decide) (by omega)
  rw [makeMemTlp]
  refine h.trans ?_
  rw [hfmt, layout]
  simp only [BitVec.toNat_ofNat]
  omega

theorem header_memoryRead (address requesterId tag byteEnable : Int) :
    (Bfm.memoryRead address requesterId tag byteEnable).header =
      (layout 0 (requesterId % 2 ^ 16).toNat (tag % 2 ^ 8).toNat (byteEnable % 2 ^ 4).toNat
        ((address >>> (2 : Nat)) % 2 ^ 30).toNat : Int) := by
  have h := orField_eq (v := 0) rfl 125 3 Bfm.fmt3Dw (by decide)
  have h := orField_eq h 120 5 Bfm.memType (by decide)
  have h := orField_eq h 96 10 1 (by decide)
  have h := orField_eq (h.trans (show _ = ((2 ^ 96 : Nat) : Int) by decide)) 80 16 requesterId (.inl (by decide))
  have h := orField_eq h 72 8 tag (.inl (by omega))
  have h := orField_eq h 68 4 byteEnable (.inl (by omega))
  have h := orField_eq h 64 4 byteEnable (.inl (by omega))
  have h := orField_eq h 34 30 (address >>> (2 : Nat)) (.inl (by omega))
  rw [Bfm.memoryRead]
  refine h.trans ?_
  rw [layout, Nat.zero_mul, Nat.zero_add]

theorem header_memoryWrite (address data requesterId tag byteEnable : Int) :
    (Bfm.memoryWrite address data requesterId tag byteEnable).header =
      (layout 2 (requesterId % 2 ^ 16).toNat (tag % 2 ^ 8).toNat (byteEnable % 2 ^ 4).toNat
        ((address >>> (2 : Nat)) % 2 ^ 30).toNat : Int) := by
  have hlt : layout 0 (requesterId % 2 ^ 16).toNat (tag % 2 ^ 8).toNat (byteEnable % 2 ^ 4).toNat
      ((address >>> (2 : Nat)) % 2 ^ 30).toNat < 2 ^ 125 := by
    unfold layout
    omega
  have hclear : Int.land (layout 0 (requesterId % 2 ^ 16).toNat (tag % 2 ^ 8).toNat (byteEnable % 2 ^ 4).toNat
      ((address >>> (2 : Nat)) % 2 ^ 30).toNat) (Int.lnot ((0x7 : Int) <<< (125 : Nat))) = _ :=
    land_lnot_shiftLeft hlt 7
  rw [← header_memoryRead] at hclear
  refine (orField_eq (hclear.trans (header_memoryRead address requesterId tag byteEnable)) 125 3 Bfm.fmt3DwData
    (.inr hlt)).trans ?_
  have hfmt : (Bfm.fmt3DwData % 2 ^ 3).toNat = 2 := by decide
  rw [hfmt]
  unfold layout
  congr 1
  omega

section Decode

variable {t : Bfm.MemoryTlp} {fmt requesterId tag be address : Nat}

theorem decode_layout (ht : t.header = (layout fmt requesterId tag be address : Int)) (hfmt : fmt = 0 ∨ fmt = 2)
    (hr : requesterId < 2 ^ 16) (htag : tag < 2 ^ 8) (hbe : be < 2 ^ 4) (ha : address < 2 ^ 30) :
    t.isWrite = decide (fmt = 2) ∧ t.address = ((address * 4 : Nat) : Int) ∧ t.firstBe = be ∧
      t.requesterId = requesterId := by
  have hfields : layout fmt requesterId tag be address / 2 ^ 125 = fmt ∧
      layout fmt requesterId tag be address / 2 ^ 34 % 2 ^ 30 = address ∧
      layout fmt requesterId tag be address / 2 ^ 64 % 2 ^ 4 = be ∧
      layout fmt requesterId tag be address / 2 ^ 80 % 2 ^ 16 = requesterId := by
    have hdiv : layout fmt requesterId tag be address / 2 ^ 80 = fmt * 2 ^ 45 + 2 ^ 16 + requesterId := by
      unfold layout
      omega
    rw [hdiv]
    unfold layout
    refine ⟨?_, ?_, ?_, ?_⟩ <;> omega
  obtain ⟨hfmt', haddr', hbe', hrid'⟩ := hfields
  have hthree : Int.land (t.header >>> (125 : Nat)) 0x1 = 0 := by
    rw [ht, land_shiftRight _ _ (show (0x1 : Int) = (1 <<< 1) - 1 by decide), hfmt']
    rcases hfmt with rfl | rfl <;> rfl
  refine ⟨?_, ?_, ?_, ?_⟩
  · rw [Bfm.MemoryTlp.isWrite, ht, land_shiftRight _ _ (show (0x7 : Int) = (1 <<< 3) - 1 by decide), hfmt']
    rcases hfmt with rfl | rfl <;> rfl
  · rw [Bfm.MemoryTlp.address, if_neg (not_not_intro hthree), ht, land_shiftRight _ _ rfl, haddr', Int.shiftLeft_eq]
    norm_cast
  · rw [Bfm.MemoryTlp.firstBe, ht, land_shiftRight _ _ (show (0xf : Int) = (1 <<< 4) - 1 by decide), hbe']
  · rw [Bfm.MemoryTlp.requesterId, ht, land_shiftRight _ _ (show (0xffff : Int) = (1 <<< 16) - 1 by decide), hrid']

end Decode

/-! ## Against each other -/

theorem firstBe_eq (address : BitVec 64) {n : Nat} (hn : n ≤ 4) :
    firstBe address (BitVec.ofNat 32 n) = byteEnable (address.toNat % 4) n := by
  apply BitVec.eq_of_getLsbD_eq
  intro i hi
  have hoff : ((address.extractLsb' 0 2).setWidth 32).toNat = address.toNat % 4 := by
    rw [BitVec.toNat_setWidth, BitVec.extractLsb'_toNat]
    omega
  have hmod := Nat.mod_lt address.toNat (show 0 < 4 by decide)
  rw [byteEnable_getLsbD _ _ hi, firstBe, getLsbD_bits _ hi, decide_eq_true hi, Bool.true_and, decide_eq_decide,
    BitVec.le_def, BitVec.lt_def, BitVec.toNat_add, hoff, BitVec.toNat_ofNat, BitVec.toNat_ofNat]
  omega

def Bfm.memoryTlp (isWrite : Bool) (address data requesterId tag byteEnable : Int) : Bfm.MemoryTlp :=
  if isWrite then Bfm.memoryWrite address data requesterId tag byteEnable
  else Bfm.memoryRead address requesterId tag byteEnable

theorem header_memoryTlp (isWrite : Bool) (address data requesterId tag byteEnable : Int) :
    (Bfm.memoryTlp isWrite address data requesterId tag byteEnable).header =
      (layout (if isWrite then 2 else 0) (requesterId % 2 ^ 16).toNat (tag % 2 ^ 8).toNat (byteEnable % 2 ^ 4).toNat
        ((address >>> (2 : Nat)) % 2 ^ 30).toNat : Int) := by
  cases isWrite with
  | false => exact header_memoryRead address requesterId tag byteEnable
  | true  => exact header_memoryWrite address data requesterId tag byteEnable

theorem toNat_emod {n : Nat} (x : BitVec n) : ((x.toNat : Int) % 2 ^ n).toNat = x.toNat := by
  have h : (x.toNat : Int) % 2 ^ n = x.toNat := by
    norm_cast
    exact Nat.mod_eq_of_lt x.isLt
  rw [h, Int.toNat_natCast]

/-- What is read of a TLP is what it was built from, and every bit of its header belongs to one field. -/
structure Decodes (isWrite : Bool) (address : BitVec 32) (requesterId : BitVec 16) (tag : BitVec 8) (be : BitVec 4)
    (t : Bfm.MemoryTlp) : Prop where
  direction : t.isWrite = isWrite
  dwAddress : t.address = ((address.toNat / 4 * 4 : Nat) : Int)
  requester : t.requesterId = requesterId.toNat
  enable    : t.firstBe = be.toNat
  fields    : t.header = (((if isWrite then 2#3 else 0#3) ++ 0#5 ++ 0#14 ++ 1#10 ++ requesterId ++ tag ++ be ++ be ++
    address.extractLsb' 2 30 ++ 0#34).toNat : Int)

theorem memoryTlp_decodes (isWrite : Bool) (address : BitVec 32) (requesterId : BitVec 16) (tag : BitVec 8)
    (be : BitVec 4) (data : Int) : Decodes isWrite address requesterId tag be
      (Bfm.memoryTlp isWrite address.toNat data requesterId.toNat tag.toNat be.toNat) := by
  have haddr : (((address.toNat : Int) >>> (2 : Nat)) % 2 ^ 30).toNat = address.toNat / 4 := by
    have hlt := address.isLt
    rw [Int.shiftRight_eq_div_pow]
    omega
  have h := header_memoryTlp isWrite address.toNat data requesterId.toNat tag.toNat be.toNat
  rw [toNat_emod, toNat_emod, toNat_emod, haddr] at h
  obtain ⟨hw, ha, hb, hr⟩ := decode_layout h (by cases isWrite <;> decide) requesterId.isLt tag.isLt be.isLt
    (by have := address.isLt; omega)
  refine ⟨?_, ha, hr, hb, ?_⟩
  · rw [hw]
    cases isWrite <;> rfl
  · have hdw : (address.extractLsb' 2 30).toNat = address.toNat / 4 := by
      have hlt := address.isLt
      rw [BitVec.extractLsb'_toNat, Nat.shiftRight_eq_div_pow]
      omega
    have hsum : layout (if isWrite then 2 else 0) requesterId.toNat tag.toNat be.toNat (address.toNat / 4) =
        ((if isWrite then 2#3 else 0#3) ++ 0#5 ++ 0#14 ++ 1#10 ++ requesterId ++ tag ++ be ++ be ++
          address.extractLsb' 2 30 ++ 0#34).toNat := by
      simp only [toNat_append_add, toNat_fmt, hdw, layout, BitVec.toNat_ofNat]
      omega
    rw [h, hsum]

/-- **The builders of the test bench, of the Verilator top and of `tlp_bfm.py` agree, and a TLP of the last reads back
as what it was built from.** -/
theorem mem_tlp_headers :
    (∀ (isWrite : Bool) (address : BitVec 64) (n : Nat) (tag : BitVec 8) (data : Int), 1 ≤ n → n ≤ 4 →
      makeMemTlp isWrite address (BitVec.ofNat 32 n) (tag.setWidth 32) 0 =
          makeHdr isWrite address (BitVec.ofNat 4 n) tag ∧
        (Bfm.memoryTlp isWrite address.toNat data 0 tag.toNat (firstBe address (BitVec.ofNat 32 n)).toNat).header =
          (makeHdr isWrite address (BitVec.ofNat 4 n) tag).toNat) ∧
    ∀ (isWrite : Bool) (address : BitVec 32) (requesterId : BitVec 16) (tag : BitVec 8) (be : BitVec 4) (data : Int),
      Decodes isWrite address requesterId tag be
        (Bfm.memoryTlp isWrite address.toNat data requesterId.toNat tag.toNat be.toNat) := by
  refine ⟨fun isWrite address n tag data _ hn => ?_, memoryTlp_decodes⟩
  have hlen : (BitVec.ofNat 4 n).toNat = n := by
    rw [BitVec.toNat_ofNat]
    omega
  have hhdr := toNat_makeHdr isWrite address (BitVec.ofNat 4 n) tag
  rw [hlen, ← firstBe_eq address hn] at hhdr
  constructor
  · apply BitVec.eq_of_toNat_eq
    have htag : (tag.setWidth 32).extractLsb' 0 8 = tag := by
      apply BitVec.eq_of_getLsbD_eq
      intro i hi
      simp [hi, show i < 32 by omega]
    rw [hhdr, toNat_makeMemTlp, htag]
    rfl
  · have haddr : (((address.toNat : Int) >>> (2 : Nat)) % 2 ^ 30).toNat = (address.extractLsb' 2 30).toNat := by
      rw [Int.shiftRight_eq_div_pow, BitVec.extractLsb'_toNat, Nat.shiftRight_eq_div_pow]
      omega
    rw [header_memoryTlp, toNat_emod, toNat_emod, haddr, hhdr]
    rfl

/-- Two bytes written at an odd address. -/
theorem mem_tlp_headers_odd :
    makeMemTlp true 0x1025 2 7 0 = makeHdr true 0x1025 2 7 ∧ (makeHdr true 0x1025 2 7).extractLsb' 64 8 = 0x66#8 :=
  ⟨(mem_tlp_headers.1 true 0x1025 2 7 0 (by decide) (by decide)).1, by decide⟩

end Alex
end Vip
