import PcieVip.AlexTop
/-!
# AlexBar — what a BAR write leaves in the registers and what a read gives back

A write that lies inside a register, and a read of the same bytes after it.  The byte enables are moved by the low
address bits, the data is not: away from a DW boundary a write clears the bytes it addresses, and a read gives the low
bytes of the DW (`bar_reads_back_iff`).
-/
namespace Vip
namespace Alex

open Bytes Verilator Word

/-! ## Little-endian bytes of a word -/

theorem byteAt_decodeLe {p : List UInt8} (hp : p.length ≤ 8) (k : Nat) :
    byteAt (decodeLe p).toBitVec k = (p.getD k 0).toBitVec := by
  apply BitVec.eq_of_toNat_eq
  rw [toNat_byteAt]
  change (decodeLe p).toNat / 256 ^ k % 256 = (p.getD k 0).toNat
  rw [decodeLe_eq, List.take_of_length_le hp, leNat_div_mod]

theorem encodeLe_eq_iff (v : UInt64) {p : List UInt8} (hp : p.length ≤ 8) :
    encodeLe v (UInt32.ofNat p.length) = p ↔ ∀ k < p.length, byteAt v.toBitVec k = (p.getD k 0).toBitVec := by
  have hlen : (UInt32.ofNat p.length).toNat = p.length := by
    rw [UInt32.toNat_ofNat']
    omega
  have hbyte : ∀ k, (byteAt v.toBitVec k).toNat = (UInt8.ofNat (v.toNat / 256 ^ k)).toNat := by
    intro k
    rw [toNat_byteAt, UInt8.toNat_ofNat']
    rfl
  rw [encodeLe, hlen, bytes_eq v hp, leBytes_eq_map]
  constructor
  · intro h k hk
    apply BitVec.eq_of_toNat_eq
    rw [hbyte]
    conv => rhs; rw [← h]
    simp [List.getD_eq_getElem?_getD, List.getElem?_map, List.getElem?_range hk]
  · intro h
    apply List.ext_getElem
    · simp
    · intro k hk hk'
      have hd : p.getD k 0 = p[k] := by simp [List.getD_eq_getElem?_getD, hk']
      rw [List.getElem_map, List.getElem_range]
      apply UInt8.toNat_inj.1
      rw [← hbyte, h k hk', hd]
      rfl

/-! ## Accesses inside a register -/

/-- AQA, ASQ, ACQ, and the base, count and control registers of the DMA engine: address and size. -/
def spans : List (Nat × Nat) :=
  [(0x24, 4), (0x28, 8), (0x30, 8), (0x1040, 8), (0x1048, 8), (0x1050, 4), (0x105c, 4)]

structure Inside (address n : Nat) : Prop where
  size    : n ∈ lengths
  aligned : address % n = 0
  within  : ∃ b ∈ spans, b.1 ≤ address ∧ address + n ≤ b.1 + b.2

theorem Inside.dw {address n : Nat} (h : Inside address n) :
    ∃ d : Dw, d.plain = true ∧ d.address = address / 4 * 4 ∧
      (n = 8 → ∃ e : Dw, e.plain = true ∧ e.address = d.address + 4) := by
  obtain ⟨hsize, halign, b, hb, hlo, hhi⟩ := h
  have hn := mem_lengths.1 hsize
  have hpos : 0 < n := by omega
  simp only [spans, List.mem_cons, List.not_mem_nil, or_false] at hb
  rcases hb with rfl | rfl | rfl | rfl | rfl | rfl | rfl <;> dsimp only at hlo hhi
  · exact ⟨.aqa, rfl, by simp only [Dw.address]; omega, fun _ => by omega⟩
  · by_cases hhalf : address < 0x2c
    · exact ⟨.asqLo, rfl, by simp only [Dw.address]; omega, fun _ => ⟨.asqHi, rfl, rfl⟩⟩
    · exact ⟨.asqHi, rfl, by simp only [Dw.address]; omega, fun _ => by omega⟩
  · by_cases hhalf : address < 0x34
    · exact ⟨.acqLo, rfl, by simp only [Dw.address]; omega, fun _ => ⟨.acqHi, rfl, rfl⟩⟩
    · exact ⟨.acqHi, rfl, by simp only [Dw.address]; omega, fun _ => by omega⟩
  · by_cases hhalf : address < 0x1044
    · exact ⟨.descBaseLo, rfl, by simp only [Dw.address]; omega, fun _ => ⟨.descBaseHi, rfl, rfl⟩⟩
    · exact ⟨.descBaseHi, rfl, by simp only [Dw.address]; omega, fun _ => by omega⟩
  · by_cases hhalf : address < 0x104c
    · exact ⟨.cplBaseLo, rfl, by simp only [Dw.address]; omega, fun _ => ⟨.cplBaseHi, rfl, rfl⟩⟩
    · exact ⟨.cplBaseHi, rfl, by simp only [Dw.address]; omega, fun _ => by omega⟩
  · exact ⟨.descCount, rfl, by simp only [Dw.address]; omega, fun _ => by omega⟩
  · exact ⟨.dmaControl, rfl, by simp only [Dw.address]; omega, fun _ => by omega⟩

/-! ## Writing and reading back -/

/-- The write puts the payload in the addressed bytes and leaves every other byte alone. -/
def Stores (s t : Harness) (address : Nat) (payload : List UInt8) : Prop :=
  ∀ (d : Dw) (k : Nat), k < 4 → byteAt (t.slave.word d) k =
    if address ≤ d.address + k ∧ d.address + k < address + payload.length then
      (payload.getD (d.address + k - address) 0).toBitVec
    else byteAt (s.slave.word d) k

def ReadsBack (fab : Fabric) (s : Harness) (address : UInt64) (payload : List UInt8) : Prop :=
  let n := UInt32.ofNat payload.length
  let w := (s.mmio fab true address n (decodeLe payload)).2
  Stores s w address.toNat payload ∧
    ∃ result, (w.mmio fab false address n 0).1 = some (result, 0) ∧ encodeLe result n = payload

theorem byteAt_setWidth (v : BitVec 32) {k : Nat} (hk : k < 4) : byteAt (v.setWidth 64) k = byteAt v k := by
  apply BitVec.eq_of_getLsbD_eq
  intro i hi
  have : 8 * k + i < 64 := by omega
  simp [byteAt, hi, this]

/-- Of the bytes of a DW `d`, an access that begins in `d` at the offset `o` and ends in it addresses those from `o` on;
it addresses none of another DW. -/
theorem addressed_iff {d e : Dw} {o n k : Nat} (hon : o + n ≤ 4) (hk : k < 4) :
    (d.address + o ≤ e.address + k ∧ e.address + k < d.address + o + n) ↔ e = d ∧ o ≤ k ∧ k < o + n := by
  have hd := address_mod d
  have he := address_mod e
  constructor
  · rintro ⟨h1, h2⟩
    have hed : e = d := address_inj (by omega)
    subst hed
    exact ⟨rfl, by omega, by omega⟩
  · rintro ⟨rfl, h1, h2⟩
    exact ⟨by omega, by omega⟩

theorem byteAt_lanes (old : BitVec 32) {payload : List UInt8} (hp : payload.length ≤ 8) (o n : Nat) {k : Nat}
    (hk : k < 4) :
    byteAt (applyWstrb old (lo (decodeLe payload).toBitVec) (byteEnable o n)) k =
      if o ≤ k ∧ k < o + n then (payload.getD k 0).toBitVec else byteAt old k := by
  rw [byteAt_applyWstrb _ _ _ hk, byteEnable_getLsbD o n hk, byteAt_lo _ hk, byteAt_decodeLe hp]
  simp only [decide_eq_true_eq]

theorem stores_short_iff (s : Harness) {address : Nat} {payload : List UInt8} {d : Dw} (hd : d.plain = true)
    (haddr : d.address = address / 4 * 4) (hfit : address % 4 + payload.length ≤ 4) {v : BitVec 32} {bell : Bool}
    (hv : ∀ k < 4, byteAt v k = if address % 4 ≤ k ∧ k < address % 4 + payload.length then (payload.getD k 0).toBitVec
      else byteAt (s.slave.word d) k) :
    Stores s ⟨s.slave.put d v, bell⟩ address payload ↔
      ∀ k, address % 4 ≤ k → k < address % 4 + payload.length →
        payload.getD k 0 = payload.getD (k - address % 4) 0 := by
  have hsplit : address = d.address + address % 4 := by omega
  have hcap := (Dw.valid_of_plain hd).2.2.1
  constructor
  · intro h k hlo hhi
    have hk : k < 4 := by omega
    have hbyte := h d k hk
    rw [if_pos ⟨by omega, by omega⟩] at hbyte
    dsimp only at hbyte
    rw [word_put _ hcap, if_pos rfl, hv k hk, if_pos ⟨hlo, hhi⟩] at hbyte
    rw [show d.address + k - address = k - address % 4 by omega] at hbyte
    exact UInt8.toBitVec_inj.1 hbyte
  · intro h e k hk
    have hiff := addressed_iff (d := d) (e := e) hfit hk
    rw [← hsplit] at hiff
    dsimp only
    rw [word_put _ hcap]
    by_cases hed : e = d
    · subst hed
      rw [if_pos rfl, hv k hk]
      by_cases hin : address % 4 ≤ k ∧ k < address % 4 + payload.length
      · rw [if_pos hin, if_pos (hiff.2 ⟨rfl, hin⟩), h k hin.1 hin.2,
          show e.address + k - address = k - address % 4 by omega]
      · rw [if_neg hin, if_neg (fun hc => hin (hiff.1 hc).2)]
    · rw [if_neg hed, if_neg (fun hc => hed (hiff.1 hc).1)]

theorem short_length {payload : List UInt8} (h : payload.length = 1 ∨ payload.length = 2 ∨ payload.length = 4) :
    (UInt32.ofNat payload.length = 1 ∨ UInt32.ofNat payload.length = 2 ∨ UInt32.ofNat payload.length = 4) ∧
      (UInt32.ofNat payload.length).toNat = payload.length := by
  rcases h with h | h | h <;> rw [h] <;> decide

/-- An access inside one DW: the lanes it enables carry the bytes meant for them, and the low lanes, which a read gives,
hold the payload. -/
theorem readsBack_short_iff (fab : Fabric) (s : Harness) (address : UInt64) (payload : List UInt8) {d : Dw}
    (hd : d.plain = true) (haddr : d.address = address.toNat / 4 * 4)
    (hn : payload.length = 1 ∨ payload.length = 2 ∨ payload.length = 4)
    (hfit : address.toNat % 4 + payload.length ≤ 4) :
    ReadsBack fab s address payload ↔
      (∀ k, address.toNat % 4 ≤ k → k < address.toNat % 4 + payload.length →
        payload.getD k 0 = payload.getD (k - address.toNat % 4) 0) ∧
      ∀ k < payload.length, k < address.toNat % 4 → byteAt (s.slave.word d) k = (payload.getD k 0).toBitVec := by
  have hp : payload.length ≤ 8 := by omega
  have hreach := reached_of_address haddr
  obtain ⟨-, hread, hcap, -⟩ := Dw.valid_of_plain hd
  obtain ⟨hlen, hnat⟩ := short_length hn
  have hv : ∀ k < 4, _ := fun k hk =>
    byteAt_lanes (s.slave.word d) hp (address.toNat % 4) payload.length hk
  have hw := mmio_write_one fab s address (decodeLe payload) hlen
  rw [hnat, memWrite_plain fab _ _ _ _ hreach hd] at hw
  simp only [UInt64.toNat_toBitVec] at hw
  unfold ReadsBack
  dsimp only
  rw [hw, mmio_read_one fab _ _ _ hlen hreach hread]
  dsimp only
  rw [stores_short_iff s hd haddr hfit hv, word_put _ hcap, if_pos rfl]
  refine and_congr_right (fun _ => ?_)
  simp only [Option.some.injEq, Prod.mk.injEq, and_true, exists_eq_left', encodeLe_eq_iff _ hp]
  constructor
  · intro h k hk hlt
    have hk4 : k < 4 := by omega
    have hbyte := h k hk
    rw [byteAt_setWidth _ hk4, hv k hk4, if_neg (by omega)] at hbyte
    exact hbyte
  · intro h k hk
    have hk4 : k < 4 := by omega
    rw [byteAt_setWidth _ hk4, hv k hk4]
    split
    · rfl
    · exact h k hk (by omega)

theorem readsBack_eight (fab : Fabric) (s : Harness) (address : UInt64) (payload : List UInt8) {d e : Dw}
    (hd : d.plain = true) (haddr : d.address = address.toNat) (he : e.plain = true)
    (hnext : e.address = d.address + 4) (hn : payload.length = 8) : ReadsBack fab s address payload := by
  have hd4 := address_mod d
  have hdlt := address_lt d
  have hed : e ≠ d := by
    rintro rfl
    omega
  have hnat := toNat_add_four address (by omega)
  have hreach : reached address.toNat = some d := reached_of_address (by omega)
  have hreach' : reached (address.toBitVec + 4).toNat = some e := reached_of_address (by omega)
  obtain ⟨-, hdr, hdcap, -⟩ := Dw.valid_of_plain hd
  obtain ⟨-, her, hecap, -⟩ := Dw.valid_of_plain he
  have hlen : UInt32.ofNat payload.length = 8 := by rw [hn]; rfl
  -- the words of the two DWs, and of every other
  have hword : ∀ f, ((s.slave.put d (lo (decodeLe payload).toBitVec)).put e (hi (decodeLe payload).toBitVec)).word f =
      if f = e then hi (decodeLe payload).toBitVec else if f = d then lo (decodeLe payload).toBitVec
      else s.slave.word f := by
    intro f
    rw [word_put _ hecap, word_put _ hdcap]
  unfold ReadsBack
  dsimp only
  rw [hlen, mmio_write_qw fab s _ hd he haddr hnext, mmio_read_two fab _ _ _ hreach hdr hreach' her]
  dsimp only
  refine ⟨fun f k hk => ?_, _, rfl, ?_⟩
  · dsimp only
    rw [hword]
    have hf4 := address_mod f
    by_cases hfe : f = e
    · subst hfe
      rw [if_pos rfl, if_pos ⟨by omega, by omega⟩, byteAt_hi _ hk, byteAt_decodeLe (by omega),
        show f.address + k - address.toNat = 4 + k by omega]
    · by_cases hfd : f = d
      · subst hfd
        rw [if_neg hfe, if_pos rfl, if_pos ⟨by omega, by omega⟩, byteAt_lo _ hk, byteAt_decodeLe (by omega),
          show f.address + k - address.toNat = k by omega]
      · have hout : ¬ (address.toNat ≤ f.address + k ∧ f.address + k < address.toNat + payload.length) := by
          rintro ⟨h1, h2⟩
          have : f.address = d.address ∨ f.address = e.address := by omega
          rcases this with h | h
          · exact hfd (address_inj h)
          · exact hfe (address_inj h)
        rw [if_neg hfe, if_neg hfd, if_neg hout]
  · rw [hword, hword, if_pos rfl, if_neg (Ne.symm hed), if_pos rfl, join_hi_lo, ← hlen]
    exact (encodeLe_eq_iff _ (by omega)).2 (fun k _ => byteAt_decodeLe (by omega) k)

/-- **A BAR write inside a register reads back exactly when it begins at a DW boundary**, or else when there was nothing
but zeros to write and to read. -/
theorem bar_reads_back_iff (fab : Fabric) (s : Harness) (address : UInt64) (payload : List UInt8)
    (h : Inside address.toNat payload.length) :
    ReadsBack fab s address payload ↔ address.toNat % 4 = 0 ∨
      ((∀ b ∈ payload, b = 0) ∧ ∀ d, reached address.toNat = some d → ∀ k < payload.length,
        byteAt (s.slave.word d) k = 0) := by
  obtain ⟨d, hd, haddr, height⟩ := h.dw
  have hn := mem_lengths.1 h.size
  have halign := h.aligned
  by_cases h8 : payload.length = 8
  · obtain ⟨e, he, hnext⟩ := height h8
    rw [h8] at halign
    exact ⟨fun _ => .inl (by omega), fun _ => readsBack_eight fab s address payload hd (by omega) he hnext h8⟩
  · have hshort : payload.length = 1 ∨ payload.length = 2 ∨ payload.length = 4 := by omega
    -- away from a DW boundary an access ends before the lane it begins at comes round
    have hfit : address.toNat % 4 + payload.length ≤ 4 ∧
        (address.toNat % 4 = 0 ∨ payload.length ≤ address.toNat % 4) := by
      rcases hshort with h1 | h1 | h1 <;> rw [h1] at halign ⊢ <;> omega
    rw [readsBack_short_iff fab s address payload hd haddr hshort hfit.1]
    have hzero : ∀ k, payload.length ≤ k → payload.getD k 0 = 0 := by
      intro k hk
      simp [List.getD_eq_getElem?_getD, List.getElem?_eq_none hk]
    constructor
    · rintro ⟨hlanes, hlow⟩
      refine or_iff_not_imp_left.2 (fun ho => ?_)
      have hle := hfit.2.resolve_left ho
      have hpay : ∀ k < payload.length, payload.getD k 0 = 0 := by
        intro k hk
        have := hlanes (k + address.toNat % 4) (by omega) (by omega)
        rw [Nat.add_sub_cancel, hzero _ (by omega)] at this
        exact this.symm
      refine ⟨fun b hb => ?_, fun d' hd' k hk => ?_⟩
      · obtain ⟨k, hk, rfl⟩ := List.getElem_of_mem hb
        have := hpay k hk
        simpa [List.getD_eq_getElem?_getD, hk] using this
      · rw [reached_of_address haddr] at hd'
        cases hd'
        rw [hlow k hk (by omega), hpay k hk]
        rfl
    · rintro (ho | ⟨hall, hold⟩)
      · rw [ho]
        exact ⟨fun k _ _ => rfl, fun k _ hk => absurd hk (Nat.not_lt_zero k)⟩
      · have hpay : ∀ k, payload.getD k 0 = 0 := by
          intro k
          by_cases hk : k < payload.length
          · simpa [List.getD_eq_getElem?_getD, hk] using hall _ (List.getElem_mem hk)
          · exact hzero k (Nat.not_lt.1 hk)
        exact ⟨fun k _ _ => by rw [hpay, hpay], fun k hk _ => by rw [hold d (reached_of_address haddr) k hk, hpay]; rfl⟩

/-- Eight bytes of ASQ, from an address that is a DW boundary. -/
theorem bar_reads_back_iff_asq :
    let payload : List UInt8 := [0x11, 0x22, 0x33, 0x44, 0x55, 0x66, 0x77, 0x88]
    Inside (0x28 : UInt64).toNat payload.length ∧ ReadsBack Fabric.plain {} 0x28 payload := by
  intro payload
  have hin : Inside (0x28 : UInt64).toNat payload.length := ⟨by decide, by decide, by decide⟩
  exact ⟨hin, (bar_reads_back_iff Fabric.plain {} 0x28 payload hin).2 (.inl (by decide))⟩

/-- The second byte of AQA, written with 0x5a, becomes zero. -/
theorem bar_byte_write_lost :
    ∃ (s : Harness) (address : UInt64) (payload : List UInt8), Inside address.toNat payload.length ∧
      ¬ ReadsBack Fabric.plain s address payload := by
  refine ⟨{}, 0x25, [0x5a], ⟨by decide, by decide, by decide⟩, fun h => ?_⟩
  exact absurd (h.1 .aqa 1 (by decide)) (by decide)

end Alex
end Vip
