import Mathlib.Data.List.Sort
import PcieVip.HarnessDma
import PcieVip.LibMem
/-!
# WriteTlps — what `DmaWrite` makes of the write requests of the engine

A memory write TLP is presented over as many beats as its data takes, with its header on each.  `DmaWrite` takes every
beat for a request of its own: for each it sends the bytes of that beat, followed by zeros, to the address it reads in
the header, so that the last beat decides what is in host memory.  It leaves out the byte enables, and does not look at
the pins before the descriptor is accepted.  `writes_exact_iff` says for which TLPs host memory is what the TLP says.
-/
namespace Vip
namespace Verilator

open Ics Word

/-! ## Memory write TLPs -/

/-- A header, and the words of its beats. -/
structure WriteTlp where
  hdr  : BitVec 128
  beat : Nat → BitVec 256

namespace WriteTlp

def beats (t : WriteTlp) : Nat := (Tlp.lenDw t.hdr + 7) / 8

def byte (t : WriteTlp) (j : Nat) : UInt8 := ⟨byteAt (t.beat (j / 32)) (j % 32)⟩

/-- The byte is one of the data, and enabled in the first or the last DW. -/
def enabled (t : WriteTlp) (j : Nat) : Bool :=
  j < 4 * Tlp.lenDw t.hdr &&
    if j / 4 = 0 then (Tlp.firstBe t.hdr).getLsbD (j % 4)
    else if j / 4 = Tlp.lenDw t.hdr - 1 then (Tlp.lastBe t.hdr).getLsbD (j % 4)
    else true

/-- What the TLP says of memory: its enabled bytes and no other. -/
def apply (t : WriteTlp) (mem : BitVec 64 → UInt8) : BitVec 64 → UInt8 := fun x =>
  if t.enabled (x - Tlp.address t.hdr).toNat then t.byte (x - Tlp.address t.hdr).toNat else mem x

end WriteTlp

structure Placed where
  start : Nat
  tlp   : WriteTlp

def Placed.finish (x : Placed) : Nat := x.start + x.tlp.beats

/-- In its first `e` ticks the trace presents these TLPs and nothing else. -/
structure Presents (trace : Nat → DmaPins) (e : Nat) (placed : List Placed) : Prop where
  within : ∀ x ∈ placed, x.finish ≤ e
  beats  : ∀ x ∈ placed, ∀ k < x.tlp.beats, (trace (x.start + k)).reqValid = true ∧
    (trace (x.start + k)).reqHdr = x.tlp.hdr ∧ (trace (x.start + k)).reqData = x.tlp.beat k ∧
    (trace (x.start + k)).reqSop = decide (k = 0) ∧ (trace (x.start + k)).reqEop = decide (k + 1 = x.tlp.beats)
  order  : placed.Pairwise (fun x y => x.finish ≤ y.start)
  only   : ∀ k < e, (trace k).reqValid = true → ∃ x ∈ placed, x.start ≤ k ∧ k < x.finish

/-! ## The host -/

def hostWrite (mem : BitVec 64 → UInt8) (r : Request) : BitVec 64 → UInt8 := Mem.write mem r.address.toBitVec r.payload

def hostAfter (mem : BitVec 64 → UInt8) (rs : List Request) : BitVec 64 → UInt8 := rs.foldl hostWrite mem

theorem hostAfter_append (mem : BitVec 64 → UInt8) (rs rs' : List Request) :
    hostAfter mem (rs ++ rs') = hostAfter (hostAfter mem rs) rs' := List.foldl_append

/-- The requests that are sent for a TLP: one for each of its beats after the first `a` ticks. -/
def Placed.sent (trace : Nat → DmaPins) (simTime : UInt64) (a : Nat) (x : Placed) : List Request :=
  (List.range' (max a x.start) (x.finish - max a x.start)).map (fun k => (trace k).writeRequest simTime)

/-! ## The loop -/

section Loop

variable {host : Host} (trace : Nat → DmaPins) (simTime : UInt64)

def Requested (s s' : Served) : Prop :=
  s.ticks ≤ s'.ticks ∧ s'.exchanges.map (·.1) =
    s.exchanges.map (·.1) ++ (requestCycles trace s.ticks s'.ticks).map (fun k => (trace k).writeRequest simTime)

theorem Requested.refl (s : Served) : Requested trace simTime s s := by
  refine ⟨Nat.le_refl _, ?_⟩
  rw [requestCycles, Nat.sub_self]
  exact (List.append_nil _).symm

theorem Requested.idle {s s' : Served} (hv : (trace s.ticks).reqValid = false) (h : Requested trace simTime s.tick s') :
    Requested trace simTime s s' := by
  have hle : s.ticks + 1 ≤ s'.ticks := h.1
  refine ⟨by omega, ?_⟩
  rw [requestCycles_append trace (Nat.le_succ _) hle, requestCycles_one, hv]
  exact h.2

theorem Requested.ask {s s' : Served} (hv : (trace s.ticks).reqValid = true)
    (h : Requested trace simTime (s.tick.ask host ((trace s.ticks).writeRequest simTime)) s') :
    Requested trace simTime s s' := by
  have hle : s.ticks + 1 ≤ s'.ticks := h.1
  refine ⟨by omega, ?_⟩
  rw [requestCycles_append trace (Nat.le_succ _) hle, requestCycles_one, hv, if_pos rfl, h.2]
  dsimp only [Served.ask, Served.tick]
  rw [List.map_append, List.map_append, List.append_assoc]
  rfl

theorem writeLoop_requested (hhost : ∀ es r, isSuccess (host es r) = true) : ∀ (n : Nat) (s : Served),
    Requested trace simTime s (writeLoop host trace simTime n s).2
  | 0, s     => Requested.refl trace simTime s
  | n + 1, s => by
    -- the loop stops after the tick, or goes on
    have hrest : ∀ (s' : Served), Requested trace simTime s'
        (if (trace s.ticks).statusValid then (decide ((trace s.ticks).statusError = 0), s')
          else writeLoop host trace simTime n s').2 := by
      intro s'
      split
      · exact Requested.refl trace simTime s'
      · exact writeLoop_requested hhost n s'
    rw [writeLoop]
    cases hv : (trace s.ticks).reqValid with
    | false => exact Requested.idle trace simTime hv (hrest _)
    | true  =>
      rw [if_pos rfl]
      dsimp only
      rw [hhost]
      exact Requested.ask trace simTime hv (hrest _)

theorem dmaWrite_requested (hhost : ∀ es r, isSuccess (host es r) = true) :
    Requested trace simTime { ticks := acceptTicks trace } (dmaWrite host trace simTime).2 := by
  unfold dmaWrite acceptTicks
  cases acceptLoop trace 1000 0 with
  | none   => exact Requested.refl trace simTime _
  | some t => exact writeLoop_requested trace simTime hhost 2000 _

end Loop

theorem requestCycles_eq {trace : Nat → DmaPins} {e : Nat} {placed : List Placed} (hp : Presents trace e placed)
    (a : Nat) :
    requestCycles trace a e = placed.flatMap (fun x => List.range' (max a x.start) (x.finish - max a x.start)) := by
  have hsorted : (requestCycles trace a e).Pairwise (· < ·) := (List.pairwise_lt_range' 1).filter _
  refine hsorted.eq_of_mem_iff ?_ (fun k => ?_)
  · rw [List.pairwise_flatMap]
    refine ⟨fun _ _ => List.pairwise_lt_range' 1, hp.order.imp (fun {x y} hxy j hj k hk => ?_)⟩
    rw [List.mem_range'_1] at hj hk
    omega
  · rw [mem_requestCycles, List.mem_flatMap]
    constructor
    · rintro ⟨h1, h2, h3⟩
      obtain ⟨x, hx, h4, h5⟩ := hp.only k h2 h3
      exact ⟨x, hx, by rw [List.mem_range'_1]; omega⟩
    · rintro ⟨x, hx, hk⟩
      rw [List.mem_range'_1] at hk
      have hwithin := hp.within x hx
      have hfinish : x.finish = x.start + x.tlp.beats := rfl
      obtain ⟨hv, -⟩ := hp.beats x hx (k - x.start) (by omega)
      rw [show x.start + (k - x.start) = k by omega] at hv
      exact ⟨by omega, by omega, hv⟩

/-! ## The beats of one TLP -/

def WriteTlp.sentByte (t : WriteTlp) (j : Nat) : UInt8 := if j < 32 then ⟨byteAt (t.beat (t.beats - 1)) j⟩ else 0

theorem payload_length (p : DmaPins) : p.payload.length = p.reqLen.toNat := by
  rw [DmaPins.payload, List.length_map, List.length_range]

theorem hostWrite_apply (p : DmaPins) (simTime : UInt64) (mem : BitVec 64 → UInt8) (x : BitVec 64) :
    hostWrite mem (p.writeRequest simTime) x =
      if (x - p.reqAddr.toBitVec).toNat < p.reqLen.toNat then
        (if (x - p.reqAddr.toBitVec).toNat < 32 then ⟨byteAt p.reqData (x - p.reqAddr.toBitVec).toNat⟩ else 0)
      else mem x := by
  change (p.payload[(x - p.reqAddr.toBitVec).toNat]?).getD (mem x) = _
  generalize (x - p.reqAddr.toBitVec).toNat = j
  by_cases hj : j < p.reqLen.toNat
  · rw [if_pos hj, List.getElem?_eq_getElem (by rw [payload_length]; exact hj), Option.getD_some]
    simp only [DmaPins.payload, List.getElem_map, List.getElem_range, payload_byte]
  · rw [if_neg hj, List.getElem?_eq_none (by rw [payload_length]; omega), Option.getD_none]

theorem hostAfter_beats {trace : Nat → DmaPins} (simTime : UInt64) {hdr : BitVec 128} (lo : Nat)
    (mem : BitVec 64 → UInt8) : ∀ (n : Nat), (∀ k ≤ n, (trace (lo + k)).reqHdr = hdr) →
      hostAfter mem ((List.range' lo (n + 1)).map (fun k => (trace k).writeRequest simTime)) =
        hostWrite mem ((trace (lo + n)).writeRequest simTime)
  | 0, _     => rfl
  | n + 1, h => by
    have ih := hostAfter_beats simTime lo mem n (fun k hk => h k (by omega))
    have hsame : (trace (lo + n)).reqHdr = (trace (lo + (n + 1))).reqHdr :=
      (h n (Nat.le_succ n)).trans (h (n + 1) (Nat.le_refl _)).symm
    have haddr : (trace (lo + n)).reqAddr = (trace (lo + (n + 1))).reqAddr := by
      rw [DmaPins.reqAddr, hsame]
      rfl
    have hlen : (trace (lo + n)).reqLen = (trace (lo + (n + 1))).reqLen := by
      rw [DmaPins.reqLen, hsame]
      rfl
    rw [List.range'_1_concat, List.map_append, hostAfter_append, ih]
    change Mem.write (Mem.write mem (trace (lo + n)).reqAddr.toBitVec (trace (lo + n)).payload)
      (trace (lo + (n + 1))).reqAddr.toBitVec (trace (lo + (n + 1))).payload = _
    rw [haddr]
    refine Mem.write_write_same _ _ ?_
    rw [payload_length, payload_length, hlen]

theorem WriteTlp.beats_pos (t : WriteTlp) : 0 < t.beats := by
  unfold WriteTlp.beats Tlp.lenDw
  split
  · omega
  · rename_i hne
    have hpos : (t.hdr.extractLsb' 96 10).toNat ≠ 0 := fun h => hne (BitVec.eq_of_toNat_eq h)
    omega

section OneTlp

variable {trace : Nat → DmaPins} (simTime : UInt64) {e : Nat} {placed : List Placed} {x : Placed}

theorem hostAfter_sent_none {a : Nat} (h : x.finish ≤ a) (mem : BitVec 64 → UInt8) :
    hostAfter mem (x.sent trace simTime a) = mem := by
  rw [Placed.sent, show x.finish - max a x.start = 0 by omega]
  rfl

theorem hostAfter_sent (hp : Presents trace e placed) (hx : x ∈ placed) {a : Nat} (h : a < x.finish)
    (mem : BitVec 64 → UInt8) :
    hostAfter mem (x.sent trace simTime a) = hostWrite mem ((trace (x.finish - 1)).writeRequest simTime) := by
  have hpos := x.tlp.beats_pos
  have hfinish : x.finish = x.start + x.tlp.beats := rfl
  have hheader : ∀ k ≤ x.finish - max a x.start - 1, (trace (max a x.start + k)).reqHdr = x.tlp.hdr := by
    intro k hk
    obtain ⟨-, hhdr, -⟩ := hp.beats x hx (max a x.start + k - x.start) (by omega)
    rw [show x.start + (max a x.start + k - x.start) = max a x.start + k by omega] at hhdr
    exact hhdr
  rw [Placed.sent, show x.finish - max a x.start = (x.finish - max a x.start - 1) + 1 by omega,
    hostAfter_beats simTime _ mem _ hheader]
  rw [show max a x.start + (x.finish - max a x.start - 1) = x.finish - 1 by omega]

theorem last_beat (hp : Presents trace e placed) (hx : x ∈ placed) :
    (trace (x.finish - 1)).reqHdr = x.tlp.hdr ∧ (trace (x.finish - 1)).reqData = x.tlp.beat (x.tlp.beats - 1) := by
  have hpos := x.tlp.beats_pos
  have hfinish : x.finish = x.start + x.tlp.beats := rfl
  obtain ⟨-, hhdr, hdata, -⟩ := hp.beats x hx (x.tlp.beats - 1) (by omega)
  rw [show x.start + (x.tlp.beats - 1) = x.finish - 1 by omega] at hhdr hdata
  exact ⟨hhdr, hdata⟩

end OneTlp

/-! ## Which TLPs arrive -/

namespace WriteTlp

/-- A TLP of which the harness leaves out nothing: the header has three DWs or the address 0, and less than 1024 DWs;
all bytes are enabled; and the data fits in one beat, or is what is sent with the last one all the same. -/
structure Plain (t : WriteTlp) : Prop where
  length  : t.hdr.extractLsb' 96 10 ≠ 0
  address : Tlp.fourDw t.hdr = false ∨ Tlp.address t.hdr = 0
  first   : Tlp.firstBe t.hdr = 0xf
  last    : Tlp.lenDw t.hdr = 1 ∨ Tlp.lastBe t.hdr = 0xf
  data    : t.beats = 1 ∨ ∀ j < 4 * Tlp.lenDw t.hdr, t.byte j = t.sentByte j

def Silent (t : WriteTlp) : Prop :=
  Tlp.firstBe t.hdr = 0 ∧ (Tlp.lenDw t.hdr = 1 ∨ Tlp.lenDw t.hdr = 2 ∧ Tlp.lastBe t.hdr = 0)

end WriteTlp

theorem ite_byte_iff {p q : Prop} [Decidable p] [Decidable q] {b c : UInt8} :
    (∀ v : UInt8, (if p then b else v) = if q then c else v) ↔ (p ↔ q) ∧ (p → b = c) := by
  have hne : ∀ b : UInt8, b ≠ b + 1 := by
    intro b hb
    have hnat := congrArg UInt8.toNat hb
    rw [UInt8.toNat_add, UInt8.toNat_one] at hnat
    have := b.toNat_lt
    omega
  constructor
  · intro h
    by_cases hp : p
    · by_cases hq : q
      · have hbc := h 0
        rw [if_pos hp, if_pos hq] at hbc
        exact ⟨⟨fun _ => hq, fun _ => hp⟩, fun _ => hbc⟩
      · have hbc := h (b + 1)
        rw [if_pos hp, if_neg hq] at hbc
        exact absurd hbc (hne b)
    · by_cases hq : q
      · have hbc := h (c + 1)
        rw [if_neg hp, if_pos hq] at hbc
        exact absurd hbc.symm (hne c)
      · exact ⟨⟨fun h => absurd h hp, fun h => absurd h hq⟩, fun h => absurd h hp⟩
  · rintro ⟨hpq, hbc⟩ v
    by_cases hp : p
    · rw [if_pos hp, if_pos (hpq.1 hp), hbc hp]
    · rw [if_neg hp, if_neg (fun hq => hp (hpq.2 hq))]

section Arrives

variable {t : WriteTlp} {p : DmaPins}

theorem lastWrite_eq_iff (simTime : UInt64) (hdata : p.reqData = t.beat (t.beats - 1)) :
    (∀ mem, hostWrite mem (p.writeRequest simTime) = t.apply mem) ↔
      ∀ y : BitVec 64, ((y - p.reqAddr.toBitVec).toNat < p.reqLen.toNat ↔
          t.enabled (y - Tlp.address t.hdr).toNat = true) ∧
        ((y - p.reqAddr.toBitVec).toNat < p.reqLen.toNat →
          t.sentByte (y - p.reqAddr.toBitVec).toNat = t.byte (y - Tlp.address t.hdr).toNat) := by
  constructor
  · intro h y
    rw [← ite_byte_iff]
    intro v
    have hv := congrFun (h (fun _ => v)) y
    rw [hostWrite_apply, hdata] at hv
    exact hv
  · intro h mem
    funext y
    rw [hostWrite_apply, hdata]
    exact ite_byte_iff.2 (h y) (mem y)

theorem lenDw_eq (hdr : BitVec 128) (h : hdr.extractLsb' 96 10 ≠ 0) :
    Tlp.lenDw hdr = (hdr.extractLsb' 96 10).toNat ∧ 0 < Tlp.lenDw hdr ∧ Tlp.lenDw hdr < 1024 := by
  have hpos : (hdr.extractLsb' 96 10).toNat ≠ 0 := fun h0 => h (BitVec.eq_of_toNat_eq h0)
  have hlt := (hdr.extractLsb' 96 10).isLt
  rw [Tlp.lenDw, if_neg h]
  exact ⟨rfl, by omega, hlt⟩

theorem WriteTlp.Plain.enabled (h : t.Plain) (j : Nat) : t.enabled j = decide (j < 4 * Tlp.lenDw t.hdr) := by
  have hones : ∀ i < 4, (0xf#4).getLsbD i = true := by decide
  have hmod : j % 4 < 4 := Nat.mod_lt j (by decide)
  unfold WriteTlp.enabled
  by_cases hj : j < 4 * Tlp.lenDw t.hdr
  · rw [decide_eq_true hj, Bool.true_and]
    split
    · rw [h.first]
      exact hones _ hmod
    · split
      · rename_i h0 hlast
        rcases h.last with hone | hbe
        · omega
        · rw [hbe]
          exact hones _ hmod
      · rfl
  · rw [decide_eq_false hj, Bool.false_and]

theorem WriteTlp.Plain.sentByte (h : t.Plain) {j : Nat} (hj : j < 4 * Tlp.lenDw t.hdr) : t.sentByte j = t.byte j := by
  rcases h.data with hone | hdata
  · -- one beat
    have hlt : j < 32 := by
      unfold WriteTlp.beats at hone
      omega
    rw [WriteTlp.sentByte, WriteTlp.byte, if_pos hlt, hone, Nat.div_eq_of_lt hlt, Nat.mod_eq_of_lt hlt]
  · exact (hdata j hj).symm

theorem address_eq {a b : BitVec 64} {n : Nat} (hn : 0 < n) (hn' : n < 2 ^ 63)
    (h : ∀ y : BitVec 64, (y - a).toNat < n → (y - b).toNat < n) : a = b := by
  have hfirst := h a (by rw [BitVec.sub_self]; exact hn)
  have hoffset : (a + BitVec.ofNat 64 (n - 1) - b).toNat = (a - b).toNat + (n - 1) := by
    rw [show a + BitVec.ofNat 64 (n - 1) - b = (a - b) + BitVec.ofNat 64 (n - 1) by
      rw [BitVec.sub_eq_add_neg, BitVec.sub_eq_add_neg, BitVec.add_assoc, BitVec.add_comm (BitVec.ofNat 64 (n - 1)),
        BitVec.add_assoc], BitVec.toNat_add, BitVec.toNat_ofNat]
    omega
  have hlast := h (a + BitVec.ofNat 64 (n - 1)) (by rw [Mem.toNat_offset a (by omega)]; omega)
  have hzero : (a - b).toNat = 0 := by omega
  rw [← BitVec.sub_add_cancel a b, BitVec.eq_of_toNat_eq (show (a - b).toNat = (0#64).toNat from hzero),
    BitVec.zero_add]

theorem be_eq_ones {be : BitVec 4} (h : ∀ i < 4, be.getLsbD i = true) : be = 0xf := by
  apply BitVec.eq_of_getLsbD_eq
  intro i hi
  rw [h i hi]
  exact ((by decide : ∀ i < 4, true = (0xf#4).getLsbD i)) i hi

theorem be_eq_zero {be : BitVec 4} (h : ∀ i < 4, be.getLsbD i = false) : be = 0 := by
  apply BitVec.eq_of_getLsbD_eq
  intro i hi
  rw [h i hi]
  exact BitVec.getLsbD_zero.symm

theorem enabled_first {i : Nat} (hi : i < 4) (hlen : 0 < Tlp.lenDw t.hdr) :
    t.enabled i = (Tlp.firstBe t.hdr).getLsbD i := by
  unfold WriteTlp.enabled
  rw [decide_eq_true (by omega), Bool.true_and, if_pos (Nat.div_eq_of_lt hi), Nat.mod_eq_of_lt hi]

theorem enabled_last {i : Nat} (hi : i < 4) (hlen : 1 < Tlp.lenDw t.hdr) :
    t.enabled (4 * (Tlp.lenDw t.hdr - 1) + i) = (Tlp.lastBe t.hdr).getLsbD i := by
  unfold WriteTlp.enabled
  rw [decide_eq_true (by omega), Bool.true_and, if_neg (by omega), if_pos (by omega),
    show (4 * (Tlp.lenDw t.hdr - 1) + i) % 4 = i by omega]

theorem enabled_middle {j : Nat} (h0 : 1 ≤ j / 4) (h1 : j / 4 < Tlp.lenDw t.hdr - 1) : t.enabled j = true := by
  unfold WriteTlp.enabled
  rw [decide_eq_true (by omega), Bool.true_and, if_neg (by omega), if_neg (by omega)]

/-- **The last beat writes what the TLP says exactly if the TLP is plain.** -/
theorem lastWrite_iff (simTime : UInt64) (hhdr : p.reqHdr = t.hdr) (hdata : p.reqData = t.beat (t.beats - 1)) :
    (∀ mem, hostWrite mem (p.writeRequest simTime) = t.apply mem) ↔ t.Plain := by
  have haddr := reqAddr_eq_iff p
  have hreqLen := reqLen_eq p
  rw [hhdr] at haddr hreqLen
  rw [lastWrite_eq_iff simTime hdata]
  constructor
  · intro h
    have hlength : t.hdr.extractLsb' 96 10 ≠ 0 := by
      -- a TLP of 1024 DWs enables its fifth byte, and nothing is written
      intro h0
      have hfull : Tlp.lenDw t.hdr = 1024 := by
        rw [Tlp.lenDw, if_pos h0]
      have hnothing : p.reqLen.toNat = 0 := by
        rw [hreqLen, h0]
        rfl
      have henabled : t.enabled 4 = true := enabled_middle (by decide) (by rw [hfull]; decide)
      have hin := (h (Tlp.address t.hdr + BitVec.ofNat 64 4)).1.2
        (by rw [Mem.toNat_offset _ (by decide)]; exact henabled)
      rw [hnothing] at hin
      exact absurd hin (Nat.not_lt_zero _)
    obtain ⟨hlen, hpos, hlt⟩ := lenDw_eq t.hdr hlength
    rw [← hlen] at hreqLen
    have heq : p.reqAddr.toBitVec = Tlp.address t.hdr := by
      refine address_eq (n := 4 * Tlp.lenDw t.hdr) (by omega) (by omega) (fun y hy => ?_)
      have henabled := (h y).1.1 (by rw [hreqLen]; exact hy)
      unfold WriteTlp.enabled at henabled
      exact of_decide_eq_true (Bool.and_eq_true_iff.1 henabled).1
    -- every byte of the data is enabled and sent
    have hall : ∀ j < 4 * Tlp.lenDw t.hdr, t.enabled j = true ∧ t.sentByte j = t.byte j := by
      intro j hj
      have hy := h (Tlp.address t.hdr + BitVec.ofNat 64 j)
      rw [heq, Mem.toNat_offset _ (by omega), hreqLen] at hy
      exact ⟨hy.1.1 hj, hy.2 hj⟩
    refine ⟨hlength, haddr.1 heq, be_eq_ones (fun i hi => ?_), ?_, .inr (fun j hj => (hall j hj).2.symm)⟩
    · rw [← enabled_first hi hpos]
      exact (hall i (by omega)).1
    · rcases Nat.lt_or_ge 1 (Tlp.lenDw t.hdr) with hmore | hone
      · refine .inr (be_eq_ones (fun i hi => ?_))
        rw [← enabled_last hi hmore]
        exact (hall _ (by omega)).1
      · exact .inl (by omega)
  · intro hplain y
    obtain ⟨hlen, -, -⟩ := lenDw_eq t.hdr hplain.length
    rw [← hlen] at hreqLen
    rw [haddr.2 hplain.address, hreqLen, hplain.enabled, decide_eq_true_eq]
    exact ⟨Iff.rfl, fun hj => hplain.sentByte hj⟩

theorem lenDw_pos (hdr : BitVec 128) : 0 < Tlp.lenDw hdr ∧ Tlp.lenDw hdr ≤ 1024 := by
  by_cases h0 : hdr.extractLsb' 96 10 = 0
  · rw [Tlp.lenDw, if_pos h0]
    decide
  · obtain ⟨-, hpos, hlt⟩ := lenDw_eq hdr h0
    exact ⟨hpos, Nat.le_of_lt hlt⟩

theorem apply_eq_self_iff :
    (∀ mem, mem = t.apply mem) ↔ ∀ j < 4 * Tlp.lenDw t.hdr, t.enabled j = false := by
  have hlen := lenDw_pos t.hdr
  constructor
  · intro h j hj
    have hbyte : ∀ v : UInt8, (if False then (0 : UInt8) else v) = if t.enabled j then t.byte j else v := by
      intro v
      have hv := congrFun (h (fun _ => v)) (Tlp.address t.hdr + BitVec.ofNat 64 j)
      unfold WriteTlp.apply at hv
      rw [Mem.toNat_offset _ (by omega)] at hv
      rw [if_neg not_false]
      exact hv
    exact Bool.eq_false_iff.2 (fun he => (ite_byte_iff.1 hbyte).1.2 he)
  · intro h mem
    funext y
    unfold WriteTlp.apply
    have hnone : t.enabled (y - Tlp.address t.hdr).toNat = false := by
      rcases Nat.lt_or_ge (y - Tlp.address t.hdr).toNat (4 * Tlp.lenDw t.hdr) with hj | hj
      · exact h _ hj
      · unfold WriteTlp.enabled
        rw [decide_eq_false (Nat.not_lt.2 hj), Bool.false_and]
    rw [hnone]
    rfl

/-- **Nothing is what the TLP says exactly if it enables no byte.** -/
theorem nothing_iff : (∀ mem, mem = t.apply mem) ↔ t.Silent := by
  have hpos := (lenDw_pos t.hdr).1
  rw [apply_eq_self_iff]
  constructor
  · intro h
    refine ⟨be_eq_zero (fun i hi => ?_), ?_⟩
    · rw [← enabled_first hi hpos]
      exact h i (by omega)
    · rcases Nat.lt_or_ge 1 (Tlp.lenDw t.hdr) with hmore | hone
      · have htwo : Tlp.lenDw t.hdr = 2 := by
          by_contra hne
          have henabled : t.enabled 4 = true := enabled_middle (by decide) (by omega)
          rw [h 4 (by omega)] at henabled
          cases henabled
        refine .inr ⟨htwo, be_eq_zero (fun i hi => ?_)⟩
        rw [← enabled_last hi hmore]
        exact h _ (by omega)
      · exact .inl (by omega)
  · rintro ⟨hfirst, hrest⟩ j hj
    rcases Nat.lt_or_ge j 4 with hlow | hhigh
    · rw [enabled_first hlow hpos, hfirst]
      exact BitVec.getLsbD_zero
    · rcases hrest with hone | ⟨htwo, hlast⟩
      · omega
      · have henabled := enabled_last (t := t) (i := j - 4) (by omega) (by omega)
        rw [htwo, hlast, show 4 * (2 - 1) + (j - 4) = j by omega] at henabled
        rw [henabled]
        exact BitVec.getLsbD_zero

end Arrives

/-- The condition on a TLP: it is plain; or it is over before the descriptor is accepted, and enables no byte. -/
def Placed.Arrives (a : Nat) (x : Placed) : Prop := if x.finish ≤ a then x.tlp.Silent else x.tlp.Plain

theorem arrives_iff {trace : Nat → DmaPins} (simTime : UInt64) {e : Nat} {placed : List Placed}
    (hp : Presents trace e placed) {x : Placed} (hx : x ∈ placed) (a : Nat) :
    (∀ mem, hostAfter mem (x.sent trace simTime a) = x.tlp.apply mem) ↔ x.Arrives a := by
  unfold Placed.Arrives
  split
  · rename_i hover
    rw [← nothing_iff]
    exact forall_congr' (fun mem => by rw [hostAfter_sent_none simTime hover])
  · rename_i hafter
    obtain ⟨hhdr, hdata⟩ := last_beat hp hx
    rw [← lastWrite_iff simTime hhdr hdata]
    exact forall_congr' (fun mem => by rw [hostAfter_sent simTime hp hx (Nat.not_le.1 hafter)])

/-- **Write TLPs reach host memory exactly if they are plain**, for every trace that presents them and every host that
accepts all requests.  The requests are those of the TLPs, in order; for each TLP they have the effect of the TLP on
every memory exactly if it `Arrives`; and when all do, host memory is in the end what the TLPs say. -/
theorem writes_exact_iff (host : Host) (hhost : ∀ es r, isSuccess (host es r) = true) (trace : Nat → DmaPins)
    (simTime : UInt64) (placed : List Placed) (hp : Presents trace (dmaWrite host trace simTime).2.ticks placed) :
    (dmaWrite host trace simTime).2.exchanges.map (·.1) =
        placed.flatMap (Placed.sent trace simTime (acceptTicks trace)) ∧
      ((∀ x ∈ placed, ∀ mem, hostAfter mem (x.sent trace simTime (acceptTicks trace)) = x.tlp.apply mem) ↔
        ∀ x ∈ placed, x.Arrives (acceptTicks trace)) ∧
      ((∀ x ∈ placed, x.Arrives (acceptTicks trace)) →
        ∀ mem, hostAfter mem ((dmaWrite host trace simTime).2.exchanges.map (·.1)) =
          placed.foldl (fun m x => x.tlp.apply m) mem) := by
  have hsent : (dmaWrite host trace simTime).2.exchanges.map (·.1) =
      placed.flatMap (Placed.sent trace simTime (acceptTicks trace)) := by
    rw [(dmaWrite_requested trace simTime hhost).2, requestCycles_eq hp, List.map_flatMap]
    rfl
  have hiff : ∀ x ∈ placed, (∀ mem, hostAfter mem (x.sent trace simTime (acceptTicks trace)) = x.tlp.apply mem) ↔
      x.Arrives (acceptTicks trace) := fun x hx => arrives_iff simTime hp hx _
  refine ⟨hsent, forall₂_congr hiff, fun hall mem => ?_⟩
  rw [hsent, hostAfter, List.foldl_flatMap]
  exact List.foldl_ext _ _ mem (fun m x hx => (hiff x hx).2 (hall x hx) m)

def writeHdr (addr : BitVec 30) (len : BitVec 10) (first last : BitVec 4) : BitVec 128 :=
  2#3 ++ 0#19 ++ len ++ 0#24 ++ last ++ first ++ addr ++ 0#34

def oneWrite (t : WriteTlp) (k : Nat) : DmaPins :=
  if k = 0 then { descReady := true }
  else if k ≤ t.beats then
    { reqValid := true, reqSop := k = 1, reqEop := k = t.beats, reqHdr := t.hdr, reqData := t.beat (k - 1) }
  else { statusValid := true }

theorem presents_oneWrite (t : WriteTlp) : Presents (oneWrite t) (t.beats + 2) [⟨1, t⟩] := by
  refine ⟨fun x hx => ?_, fun x hx k hk => ?_, List.pairwise_singleton _ _, fun k _ hv => ?_⟩
  · rw [List.mem_singleton.1 hx]
    dsimp only [Placed.finish]
    omega
  · rw [List.mem_singleton.1 hx] at hk ⊢
    dsimp only at hk ⊢
    rw [oneWrite, if_neg (by omega), if_pos (by omega)]
    dsimp only
    rw [Nat.add_sub_cancel_left, Nat.add_comm 1 k]
    exact ⟨rfl, rfl, rfl, by simp, rfl⟩
  · refine ⟨⟨1, t⟩, List.mem_singleton.2 rfl, ?_⟩
    dsimp only [Placed.finish]
    unfold oneWrite at hv
    split at hv
    · cases hv
    · split at hv
      · omega
      · cases hv

def accepting : Host :=
  fun _ r => some ⟨makeHeader .dmaWriteRsp 0 r.address 0 .success 0 0 kFlagIsResponse r.transferLen, []⟩

/-- A TLP of 32 bytes, in one beat. -/
theorem writes_exact_beat :
    let t : WriteTlp := ⟨writeHdr 0x400 8 0xf 0xf, fun _ => 0x0102#256⟩
    t.Plain ∧ ∀ mem, hostAfter mem ((dmaWrite accepting (oneWrite t) 0).2.exchanges.map (·.1)) = t.apply mem := by
  intro t
  have hticks : (dmaWrite accepting (oneWrite t) 0).2.ticks = t.beats + 2 := by decide +kernel
  have haccept : acceptTicks (oneWrite t) = 1 := by decide +kernel
  have hplain : t.Plain :=
    ⟨by decide +kernel, by decide +kernel, by decide +kernel, by decide +kernel, by decide +kernel⟩
  obtain ⟨-, -, hexact⟩ := writes_exact_iff accepting (fun _ _ => rfl) (oneWrite t) 0 [⟨1, t⟩]
    (by rw [hticks]; exact presents_oneWrite t)
  refine ⟨hplain, hexact (fun x hx => ?_)⟩
  rw [List.mem_singleton.1 hx, haccept, Placed.Arrives, if_neg (by decide +kernel)]
  exact hplain

/-- A TLP of 64 bytes at 0x1000, in two beats, the first of which begins with 1 and the second with 2: in the end the
byte at 0x1000 is 2. -/
theorem second_beat_overwrites :
    let t : WriteTlp := ⟨writeHdr 0x400 16 0xf 0xf, fun k => BitVec.ofNat 256 (k + 1)⟩
    Presents (oneWrite t) (dmaWrite accepting (oneWrite t) 0).2.ticks [⟨1, t⟩] ∧
      hostAfter (fun _ => 0) ((dmaWrite accepting (oneWrite t) 0).2.exchanges.map (·.1)) 0x1000 = 2 ∧
      t.apply (fun _ => 0) 0x1000 = 1 := by
  intro t
  have hticks : (dmaWrite accepting (oneWrite t) 0).2.ticks = t.beats + 2 := by decide +kernel
  refine ⟨by rw [hticks]; exact presents_oneWrite t, by decide +kernel, by decide +kernel⟩

end Verilator
end Vip
