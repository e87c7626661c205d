import PcieVip.HarnessDma
import PcieVip.MmioFsm
/-!
# ReadErrors — the completion status of MMIO reads

`Harness::SendCompletion` puts the completion status in bits 79 to 77 of the header and the tag in bits 47 to 40.  The
two readers of completions, `ST_READ_WAIT` and `drive_tlp`, take the status from bits 47 to 45, which are the upper bits
of the tag.  So a read succeeds when the tags are below 32, whatever the statuses say (`read_errors_iff`).
-/
namespace Vip
namespace Alex

open Serve

/-! ## The header of a completion -/

/-- `hdr[79:77]`. -/
def cplStatus (h : BitVec 128) : BitVec 3 := h.extractLsb' 77 3

/-- `hdr[47:40]`. -/
def cplTag (h : BitVec 128) : Nat := (h.extractLsb' 40 8).toNat

/-- `dma_rx_cpl_hdr_int`. -/
def cplHdr (c : Verilator.Completion) : BitVec 128 := c.hdrHi ++ c.hdrLo

theorem cplStatus_makeCompletion (tag : UInt8) (byteCount : UInt16) (lowerAddr : UInt8) (data : List UInt8)
    (offset length : Nat) (error : Bool) :
    cplStatus (cplHdr (Verilator.makeCompletion tag byteCount lowerAddr data offset length error)) =
      if error then 1 else 0 := by
  apply BitVec.eq_of_getLsbD_eq
  intro i hi
  have h1 : ¬ 77 + i < 64 := by omega
  have h2 : 77 + i - 64 = 13 + i := by omega
  have h3 : 13 + i < 64 := by omega
  have h4 : 13 + i < 56 := by omega
  have h5 : 13 + i < 32 := by omega
  have hmask : (0xfff#64).getLsbD (13 + i) = false := by
    rw [show (0xfff#64) = (BitVec.allOnes 12).setWidth 64 by decide, BitVec.getLsbD_setWidth, BitVec.getLsbD_allOnes]
    simp [show ¬ 13 + i < 12 by omega]
  simp only [cplStatus, cplHdr, Verilator.makeCompletion, BitVec.getLsbD_extractLsb', BitVec.getLsbD_append,
    BitVec.getLsbD_or, BitVec.getLsbD_shiftLeft, BitVec.getLsbD_and, hi, h1, h2, h3, h4, h5, hmask, decide_true,
    decide_false, if_false, Bool.not_true, Bool.true_and, Bool.false_and, Bool.and_false, Bool.false_or]
  cases error with
  | false => simp
  | true  =>
    obtain rfl | rfl | rfl : i = 0 ∨ i = 1 ∨ i = 2 := by omega
    · rfl
    · rfl
    · rfl

theorem cplTag_makeCompletion (tag : UInt8) (byteCount : UInt16) (lowerAddr : UInt8) (data : List UInt8)
    (offset length : Nat) (error : Bool) :
    cplTag (cplHdr (Verilator.makeCompletion tag byteCount lowerAddr data offset length error)) = tag.toNat := by
  have htag := Verilator.completion_tag tag byteCount lowerAddr data offset length error
  unfold Verilator.Completion.tag at htag
  rw [cplTag, cplHdr, BitVec.extractLsb'_append_eq_of_add_le (by decide), htag]
  rfl

theorem upperTag_eq_zero_iff (h : BitVec 128) : h.extractLsb' 45 3 = 0 ↔ cplTag h < 32 := by
  rw [← BitVec.toNat_inj, cplTag, BitVec.extractLsb'_toNat, BitVec.extractLsb'_toNat, Nat.shiftRight_eq_div_pow,
    Nat.shiftRight_eq_div_pow, show (2 : Nat) ^ 45 = 2 ^ 40 * 2 ^ 5 from rfl, ← Nat.div_div_eq_div_mul]
  change _ = 0 ↔ _
  omega

/-- Success is reported exactly if every completion that was taken has status zero. -/
def Truthful (ok : Prop) (cpls : List (BitVec 128)) : Prop := ok ↔ ∀ h ∈ cpls, cplStatus h = 0

/-- The tags say what the statuses say: all are below 32, or an error is among the statuses. -/
def TagsTell (cpls : List (BitVec 128)) : Prop := (∀ h ∈ cpls, cplTag h < 32) ↔ ∀ h ∈ cpls, cplStatus h = 0

theorem truthful_iff {ok : Prop} {cpls : List (BitVec 128)} (h : ok ↔ ∀ c ∈ cpls, c.extractLsb' 45 3 = 0) :
    Truthful ok cpls ↔ TagsTell cpls := by
  simp only [Truthful, TagsTell, h, upperTag_eq_zero_iff]

namespace Fsm

/-! ## The completions of a read -/

/-- The machine with the request that it works on and the completions that it took for it. -/
structure Watch where
  fsm  : Fsm
  req  : Option Req := none
  cpls : List (BitVec 128) := []

structure Answer where
  req    : Req
  cpls   : List (BitVec 128)
  status : BitVec 2

/-- A clock edge; in `ST_READ_WAIT` a completion that is shown is taken. -/
def watch (w : Watch) (i : Pins) : Watch × Option Answer :=
  let s := w.fsm
  let accepts := i.reqValid && s.reqReady
  let takes := s.state = .readWait && i.cplValid
  ({ fsm := s.clock i
     req := if accepts then some ⟨i.reqWrite, i.reqAddr, i.reqLen.toNat, i.reqData⟩
       else if s.rspValid then none else w.req
     cpls := if accepts then [] else if takes then w.cpls ++ [i.cplHdr] else w.cpls },
   if s.rspValid then w.req.map (fun q => ⟨q, w.cpls, s.rspStatus⟩) else none)

def Low (cpls : List (BitVec 128)) : Prop := ∀ h ∈ cpls, h.extractLsb' 45 3 = 0

theorem low_snoc (cpls : List (BitVec 128)) (h : BitVec 128) :
    Low (cpls ++ [h]) ↔ Low cpls ∧ h.extractLsb' 45 3 = 0 := by
  simp [Low, or_imp, forall_and]

structure Busy (w : Watch) (q : Req) : Prop where
  quiet  : w.fsm.rspValid = false
  req    : w.req = some q
  loaded : Loaded w.fsm q
  count  : q.write = false → w.cpls.length = w.fsm.offset.toNat / 4
  status : q.write = false → (w.fsm.responseStatus = 0 ↔ Low w.cpls)

structure Answer.Good (a : Answer) : Prop where
  within : a.req.length ∈ lengths → a.req.write = false → a.cpls.length ≤ a.req.chunks
  status : a.req.length ∈ lengths → a.req.write = false →
    (a.status = 0 ↔ a.cpls.length = a.req.chunks ∧ Low a.cpls)

inductive WatchInv (w : Watch) : Prop
  | idle (hs : w.fsm.state = .idle) (hr : w.fsm.rspValid = false) (hq : w.req = none)
  | send (q : Req) (hs : w.fsm.state = .send) (hb : Busy w q)
  | handshake (q : Req) (hs : w.fsm.state = .handshake) (hb : Busy w q) (hc : w.fsm.chunkLen = w.fsm.nextChunk)
  | writeWait (q : Req) (hs : w.fsm.state = .writeWait) (hb : Busy w q) (hw : q.write = true)
      (hc : w.fsm.chunkLen = w.fsm.nextChunk)
  | readWait (q : Req) (hs : w.fsm.state = .readWait) (hb : Busy w q) (hw : q.write = false)
      (hc : w.fsm.chunkLen = w.fsm.nextChunk)
  | response (q : Req) (hs : w.fsm.state = .idle ∨ w.fsm.state = .response) (hr : w.fsm.rspValid = true)
      (hq : w.req = some q) (ha : Answer.Good ⟨q, w.cpls, w.fsm.rspStatus⟩)

section Edge

variable {w : Watch} {i : Pins}

theorem watch_idle (hs : w.fsm.state = .idle) (hr : w.fsm.rspValid = false) (hq : w.req = none) :
    WatchInv (watch w i).1 := by
  have hready : w.fsm.reqReady = true := by simp [reqReady, hs, hr]
  cases hv : i.reqValid with
  | false =>
    have hclock : w.fsm.clock i = w.fsm := by simp [clock, hs, hv, hr]
    refine .idle ?_ ?_ ?_
    · simp [watch, hclock, hs]
    · simp [watch, hclock, hr]
    · simp [watch, hv, hr, hq]
  | true =>
    let q : Req := ⟨i.reqWrite, i.reqAddr, i.reqLen.toNat, i.reqData⟩
    have hreq : (watch w i).1.req = some q := by simp [watch, hv, hready, q]
    have hcpls : (watch w i).1.cpls = [] := by simp [watch, hv, hready]
    by_cases hlen : i.reqLen.toNat ∈ lengths
    · have hclock : (watch w i).1.fsm =
          { w.fsm with reqWrite := i.reqWrite, reqAddr := i.reqAddr, reqLen := i.reqLen, reqData := i.reqData
                       offset := 0, responseData := 0, responseStatus := 0, timeoutCount := 0, state := .send } := by
        simp only [watch, clock, hs, hv, hready, hr, Bool.and_self, if_true, Bool.false_eq_true, if_false, badLen_iff,
          hlen, not_true_eq_false]
      refine .send q (by rw [hclock]) ⟨by rw [hclock]; exact hr, hreq, ?_, ?_, ?_⟩
      · rw [hclock]
        exact ⟨rfl, rfl, rfl, rfl, mem_places_zero _ hlen⟩
      · intro _
        rw [hclock, hcpls]
        exact show 0 = (0 : BitVec 4).toNat / 4 by decide
      · intro _
        rw [hclock, hcpls]
        exact iff_of_true rfl (List.forall_mem_nil _)
    · have hclock : (watch w i).1.fsm = { w.fsm with rspData := 0, rspStatus := 3, rspValid := true } := by
        simp only [watch, clock, hs, hv, hready, hr, Bool.and_self, if_true, Bool.false_eq_true, if_false, badLen_iff,
          hlen, not_false_eq_true]
      exact .response q (.inl (by rw [hclock]; exact hs)) (by rw [hclock]) hreq
        ⟨fun h => absurd h hlen, fun h => absurd h hlen⟩

theorem watch_busy {q : Req} (hb : Busy w q) (hi : w.fsm.state ≠ .idle) :
    (watch w i).1.req = some q ∧
      (watch w i).1.cpls = if w.fsm.state = .readWait ∧ i.cplValid = true then w.cpls ++ [i.cplHdr] else w.cpls := by
  have hready : w.fsm.reqReady = false := by simp [reqReady, hi]
  simp only [watch, hready, hb.quiet, Bool.and_false, Bool.false_eq_true, if_false, hb.req, Bool.and_eq_true,
    decide_eq_true_eq, and_self]

theorem Busy.keep {w' : Watch} {q : Req} (hb : Busy w q) (hreq : w'.req = some q) (hcpls : w'.cpls = w.cpls)
    {st : FsmState} {c : BitVec 4} {hdr : BitVec 128} {data : BitVec 256} {v : Bool} {t : BitVec 8}
    (hclock : w'.fsm = { w.fsm with state := st, chunkLen := c, tlpHdr := hdr, tlpData := data, tlpValid := v
                                    timeoutCount := t }) : Busy w' q := by
  refine ⟨by rw [hclock]; exact hb.quiet, hreq, ?_, ?_, ?_⟩
  · rw [hclock]
    exact ⟨hb.loaded.write, hb.loaded.addr, hb.loaded.data, hb.loaded.len, hb.loaded.place⟩
  · rw [hclock, hcpls]
    exact hb.count
  · rw [hclock, hcpls]
    exact hb.status

theorem watch_send {q : Req} (hs : w.fsm.state = .send) (hb : Busy w q) : WatchInv (watch w i).1 := by
  obtain ⟨hreq, hcpls⟩ := watch_busy (i := i) hb (by rw [hs]; decide)
  rw [if_neg (fun h => by rw [hs] at h; cases h.1)] at hcpls
  have hclock : ∃ hdr data, (watch w i).1.fsm =
      { w.fsm with chunkLen := w.fsm.nextChunk, tlpHdr := hdr, tlpData := data, tlpValid := true, timeoutCount := 0
                   state := .handshake } := by
    simp only [watch, clock, hs, hb.quiet, Bool.false_eq_true, if_false]
    exact ⟨_, _, rfl⟩
  obtain ⟨hdr, data, hclock⟩ := hclock
  exact .handshake q (by rw [hclock]) (hb.keep hreq hcpls hclock) (by rw [hclock]; rfl)

theorem watch_handshake {q : Req} (hs : w.fsm.state = .handshake) (hb : Busy w q)
    (hc : w.fsm.chunkLen = w.fsm.nextChunk) : WatchInv (watch w i).1 := by
  obtain ⟨hreq, hcpls⟩ := watch_busy (i := i) hb (by rw [hs]; decide)
  rw [if_neg (fun h => by rw [hs] at h; cases h.1)] at hcpls
  cases hready : i.tlpReady with
  | false =>
    have hclock : (watch w i).1.fsm = w.fsm := by simp [watch, clock, hs, hb.quiet, hready]
    exact .handshake q (by rw [hclock, hs]) (hb.keep hreq hcpls hclock) (by rw [hclock, hc])
  | true =>
    have hclock : (watch w i).1.fsm =
        { w.fsm with tlpValid := false, state := if w.fsm.reqWrite then .writeWait else .readWait } := by
      simp only [watch, clock, hs, hb.quiet, hready, Bool.false_eq_true, if_false, if_true]
    have hbusy : Busy (watch w i).1 q := hb.keep hreq hcpls hclock
    cases hw : q.write with
    | true  => exact .writeWait q (by rw [hclock, hb.loaded.write, hw]; rfl) hbusy hw (by rw [hclock]; exact hc)
    | false => exact .readWait q (by rw [hclock, hb.loaded.write, hw]; rfl) hbusy hw (by rw [hclock]; exact hc)

theorem watch_timeout {q : Req} (hs : w.fsm.state = .writeWait ∨ w.fsm.state = .readWait) (hb : Busy w q)
    (hc : w.fsm.chunkLen = w.fsm.nextChunk) (hw : w.fsm.state = .writeWait ↔ q.write = true)
    (hclock : (watch w i).1.fsm = w.fsm.wait) (hreq : (watch w i).1.req = some q)
    (hcpls : (watch w i).1.cpls = w.cpls) : WatchInv (watch w i).1 := by
  unfold wait at hclock
  split at hclock
  · refine .response q (.inr (by rw [hclock])) (by rw [hclock]) hreq ⟨fun _ hr => ?_, fun _ hr => ?_⟩
    · rw [hcpls, hb.count hr]
      exact Nat.le_of_succ_le hb.loaded.within
    · rw [hclock, hcpls, hb.count hr]
      refine iff_of_false (show (3 : BitVec 2) ≠ 0 by decide) (fun h => ?_)
      have hwithin := hb.loaded.within
      rw [h.1] at hwithin
      exact Nat.not_succ_le_self _ hwithin
  · have hbusy : Busy (watch w i).1 q := hb.keep hreq hcpls hclock
    rcases hs with hs | hs
    · exact .writeWait q (by rw [hclock]; exact hs) hbusy (hw.1 hs) (by rw [hclock]; exact hc)
    · refine .readWait q (by rw [hclock]; exact hs) hbusy ?_ (by rw [hclock]; exact hc)
      exact Bool.eq_false_iff.2 (fun h => by rw [hw.2 h] at hs; cases hs)

theorem watch_writeWait {q : Req} (hs : w.fsm.state = .writeWait) (hb : Busy w q) (hw : q.write = true)
    (hc : w.fsm.chunkLen = w.fsm.nextChunk) : WatchInv (watch w i).1 := by
  obtain ⟨hreq, hcpls⟩ := watch_busy (i := i) hb (by rw [hs]; decide)
  rw [if_neg (fun h => by rw [hs] at h; cases h.1)] at hcpls
  have hread : ¬ q.write = false := by rw [hw]; decide
  by_cases hresp : (i.bvalid && i.bready) = true
  · by_cases hlt : w.fsm.offset + w.fsm.chunkLen < w.fsm.reqLen
    · have hclock : ∃ st, (watch w i).1.fsm =
          { w.fsm with responseStatus := st, offset := w.fsm.offset + w.fsm.chunkLen, state := .send } := by
        simp only [watch, clock, hs, hb.quiet, hresp, hlt, Bool.false_eq_true, if_false, if_true]
        exact ⟨_, rfl⟩
      obtain ⟨st, hclock⟩ := hclock
      refine .send q (by rw [hclock]) ⟨by rw [hclock]; exact hb.quiet, hreq, ?_, fun h => absurd h hread,
        fun h => absurd h hread⟩
      rw [hclock]
      exact ⟨hb.loaded.write, hb.loaded.addr, hb.loaded.data, hb.loaded.len, (hb.loaded.goesOn hc hlt).1⟩
    · have hclock : ∃ st rs, (watch w i).1.fsm =
          { w.fsm with responseStatus := st, rspData := 0, rspStatus := rs, rspValid := true, state := .response } := by
        simp only [watch, clock, hs, hb.quiet, hresp, hlt, Bool.false_eq_true, if_false, if_true]
        exact ⟨_, _, rfl⟩
      obtain ⟨st, rs, hclock⟩ := hclock
      exact .response q (.inr (by rw [hclock])) (by rw [hclock]) hreq
        ⟨fun _ h => absurd h hread, fun _ h => absurd h hread⟩
  · refine watch_timeout (.inl hs) hb hc ⟨fun _ => hw, fun _ => hs⟩ ?_ hreq hcpls
    simp only [watch, clock, hs, hb.quiet, hresp, Bool.false_eq_true, if_false]

theorem status_iff {st : BitVec 2} {cpls : List (BitVec 128)} (h : st = 0 ↔ Low cpls) (hdr : BitVec 128) :
    ((if hdr.extractLsb' 45 3 ≠ 0 then 3 else st) = 0 ↔ Low (cpls ++ [hdr])) ∧
      ((if ¬ hdr.extractLsb' 45 3 ≠ 0 ∧ st = 0 then (0 : BitVec 2) else 3) = 0 ↔ Low (cpls ++ [hdr])) := by
  rw [low_snoc, ← h]
  by_cases hz : hdr.extractLsb' 45 3 = 0
  · simp only [hz, ne_eq, not_true_eq_false, if_false, not_false_eq_true, true_and, and_true]
    simp
  · simp only [hz, ne_eq, not_false_eq_true, if_true, not_true_eq_false, false_and, if_false, and_false, iff_false]
    exact ⟨by decide, by decide⟩

theorem watch_readWait {q : Req} (hs : w.fsm.state = .readWait) (hb : Busy w q) (hw : q.write = false)
    (hc : w.fsm.chunkLen = w.fsm.nextChunk) : WatchInv (watch w i).1 := by
  obtain ⟨hreq, hcpls⟩ := watch_busy (i := i) hb (by rw [hs]; decide)
  by_cases hv : i.cplValid = true
  · rw [if_pos ⟨hs, hv⟩] at hcpls
    obtain ⟨hreg, hanswer⟩ := status_iff (hb.status hw) i.cplHdr
    by_cases hlt : w.fsm.offset + w.fsm.chunkLen < w.fsm.reqLen
    · have hclock : ∃ d, (watch w i).1.fsm =
          { w.fsm with responseStatus := if i.cplHdr.extractLsb' 45 3 ≠ 0 then 3 else w.fsm.responseStatus
                       responseData := d, offset := w.fsm.offset + w.fsm.chunkLen, state := .send } := by
        simp only [watch, clock, hs, hb.quiet, hv, hlt, Bool.false_eq_true, if_false, if_true]
        exact ⟨_, rfl⟩
      obtain ⟨d, hclock⟩ := hclock
      obtain ⟨hplace, hoff⟩ := hb.loaded.goesOn hc hlt
      refine .send q (by rw [hclock]) ⟨by rw [hclock]; exact hb.quiet, hreq, ?_, fun _ => ?_, fun _ => ?_⟩
      · rw [hclock]
        exact ⟨hb.loaded.write, hb.loaded.addr, hb.loaded.data, hb.loaded.len, hplace⟩
      · rw [hclock, hcpls, List.length_append, hb.count hw]
        exact hoff.symm
      · rw [hclock, hcpls]
        exact hreg
    · have hclock : ∃ st d rd, (watch w i).1.fsm =
          { w.fsm with responseStatus := st, responseData := d, rspData := rd
                       rspStatus :=
                         if ¬ i.cplHdr.extractLsb' 45 3 ≠ 0 ∧ w.fsm.responseStatus = 0 then 0 else 3
                       rspValid := true, state := .response } := by
        simp only [watch, clock, hs, hb.quiet, hv, hlt, Bool.false_eq_true, if_false, if_true]
        exact ⟨_, _, _, rfl⟩
      obtain ⟨st, d, rd, hclock⟩ := hclock
      have hlen : (watch w i).1.cpls.length = q.chunks := by
        rw [hcpls, List.length_append, hb.count hw]
        exact hb.loaded.ends hc hlt
      refine .response q (.inr (by rw [hclock])) (by rw [hclock]) hreq ⟨fun _ _ => Nat.le_of_eq hlen, fun _ _ => ?_⟩
      rw [and_iff_right hlen, hclock, hcpls]
      exact hanswer
  · rw [if_neg (fun h => hv h.2)] at hcpls
    refine watch_timeout (.inr hs) hb hc ?_ ?_ hreq hcpls
    · rw [hs, hw]
      decide
    · simp only [watch, clock, hs, hb.quiet, hv, Bool.false_eq_true, if_false]

theorem watch_response (hs : w.fsm.state = .idle ∨ w.fsm.state = .response) (hr : w.fsm.rspValid = true) :
    WatchInv (watch w i).1 := by
  have hready : w.fsm.reqReady = false := by simp [reqReady, hr]
  have hclock : (watch w i).1.fsm = { w.fsm with rspValid := false, state := .idle } := by
    rcases hs with hs | hs <;> simp [watch, clock, hs, hr, hready]
  exact .idle (by rw [hclock]) (by rw [hclock]) (by simp [watch, hready, hr])

/-- **One clock edge keeps the tally.** -/
theorem WatchInv.step (h : WatchInv w) (i : Pins) : WatchInv (watch w i).1 := by
  cases h with
  | idle hs hr hq => exact watch_idle hs hr hq
  | send q hs hb => exact watch_send hs hb
  | handshake q hs hb hc => exact watch_handshake hs hb hc
  | writeWait q hs hb hw hc => exact watch_writeWait hs hb hw hc
  | readWait q hs hb hw hc => exact watch_readWait hs hb hw hc
  | response q hs hr hq ha => exact watch_response hs hr

theorem WatchInv.answer (h : WatchInv w) (i : Pins) : ∀ a ∈ (watch w i).2, Answer.Good a := by
  intro a ha
  cases h with
  | response q hs hr hq hgood =>
    simp only [watch, hr, if_true, hq, Option.map_some, Option.mem_def, Option.some.injEq] at ha
    rwa [← ha]
  | idle hs hr hq => simp [watch, hr] at ha
  | send q hs hb => simp [watch, hb.quiet] at ha
  | handshake q hs hb hc => simp [watch, hb.quiet] at ha
  | writeWait q hs hb hw hc => simp [watch, hb.quiet] at ha
  | readWait q hs hb hw hc => simp [watch, hb.quiet] at ha

end Edge

/-- **Every answer to a read counts the completions and says whether an upper tag bit was among them.** -/
theorem answers_good (is : List Pins) :
    ∀ (w : Watch), WatchInv w → ∀ a, some a ∈ outputs watch w is → Answer.Good a := by
  induction is with
  | nil          => exact fun w _ a ha => (by cases ha)
  | cons i is ih =>
    intro w hw a ha
    rcases List.mem_cons.1 ha with ha | ha
    · exact hw.answer i a ha.symm
    · exact ih _ (hw.step i) a ha

end Fsm

/-! ## mini_ics_alex_tb -/

namespace Tb

open Fsm (Pins)

/-- `do @(posedge clk); while (!p)`: the edge at which it ends, and those after it. -/
def await (p : Pins → Bool) : List Pins → Option (Pins × List Pins)
  | []      => none
  | i :: is => if p i then some (i, is) else await p is

/-- The outputs of `drive_tlp`, the completion that it took, and the edges after it. -/
structure Driven where
  completionData   : BitVec 32
  completionStatus : Nat
  cpls             : List (BitVec 128)
  rest             : List Pins

/-- `drive_tlp` over the edges that it sees; it takes one more edge at its end. -/
def driveTlp (isWrite : Bool) (is : List Pins) : Option Driven :=
  (await (·.tlpReady) is).bind (fun r =>
    if isWrite then
      (await (fun i => i.bvalid && i.bready) r.2).map (fun b => ⟨0, if b.1.bresp ≠ 0 then 1 else 0, [], b.2.tail⟩)
    else
      (await (·.cplValid) r.2).map (fun c =>
        ⟨c.1.cplData.setWidth 32, if c.1.cplHdr.extractLsb' 45 3 ≠ 0 then 1 else 0, [c.1.cplHdr], c.2.tail⟩))

/-- The loop of `handle_mmio_read`, with `n` TLPs to go: whether it succeeds, and the completions.  It ends at the
first error. -/
def readTlps : Nat → List Pins → Option (Bool × List (BitVec 128))
  | 0, _      => some (true, [])
  | n + 1, is =>
    (driveTlp false is).bind (fun r =>
      if r.completionStatus ≠ 0 then some (false, r.cpls)
      else (readTlps n r.rest).map (fun t => (t.1, r.cpls ++ t.2)))

theorem driveTlp_read {is : List Pins} {r : Driven} (h : driveTlp false is = some r) :
    ∃ hdr, r.cpls = [hdr] ∧ (r.completionStatus = 0 ↔ hdr.extractLsb' 45 3 = 0) := by
  obtain ⟨e, -, h⟩ := Option.bind_eq_some_iff.1 h
  rw [if_neg Bool.false_ne_true] at h
  obtain ⟨c, -, rfl⟩ := Option.map_eq_some_iff.1 h
  refine ⟨c.1.cplHdr, rfl, ?_⟩
  dsimp only
  by_cases hz : c.1.cplHdr.extractLsb' 45 3 = 0
  · rw [if_neg (not_not_intro hz)]
    exact iff_of_true rfl hz
  · rw [if_pos hz]
    exact iff_of_false nofun hz

theorem readTlps_ok : ∀ (n : Nat) (is : List Pins) (r : Bool × List (BitVec 128)), readTlps n is = some r →
    (r.1 = true ↔ ∀ hdr ∈ r.2, hdr.extractLsb' 45 3 = 0) ∧ (r.1 = true → r.2.length = n)
  | 0, _, r, h      => by
    cases h
    exact ⟨iff_of_true rfl nofun, fun _ => rfl⟩
  | n + 1, is, r, h => by
    obtain ⟨d, hd, h⟩ := Option.bind_eq_some_iff.1 h
    obtain ⟨hdr, hcpls, hstatus⟩ := driveTlp_read hd
    split at h
    · rename_i hbad
      cases h
      rw [hcpls]
      refine ⟨iff_of_false nofun (fun hall => ?_), nofun⟩
      exact hbad (hstatus.2 (hall hdr List.mem_cons_self))
    · rename_i hgood
      obtain ⟨t, ht, rfl⟩ := Option.map_eq_some_iff.1 h
      obtain ⟨hok, hlen⟩ := readTlps_ok n d.rest t ht
      have hzero := hstatus.1 (not_not.1 hgood)
      dsimp only
      rw [hcpls, List.singleton_append, List.forall_mem_cons, and_iff_right hzero, List.length_cons]
      exact ⟨hok, fun h => congrArg (· + 1) (hlen h)⟩

end Tb

/-! ## Both read paths -/

/-- **Which reads report what their completions say.**  After a reset, whatever the pins do: a read of
`alex_qemu_verilator_top` that got a completion for each of its TLPs succeeds exactly if all their statuses are zero, if
and only if the tags tell the same.  So do `drive_tlp` and the reads of `mini_ics_alex_tb` that are made of it. -/
theorem read_errors_iff (s₀ : Fsm) (i₀ : Fsm.Pins) (is : List Fsm.Pins) :
    (∀ a, some a ∈ outputs Fsm.watch { fsm := s₀.edge true i₀ } is → a.req.write = false → a.req.length ∈ lengths →
      a.cpls.length = a.req.chunks → (Truthful (a.status = 0) a.cpls ↔ TagsTell a.cpls)) ∧
    (∀ r, Tb.driveTlp false is = some r → (Truthful (r.completionStatus = 0) r.cpls ↔ TagsTell r.cpls)) ∧
    (∀ n r, Tb.readTlps n is = some r → (Truthful (r.1 = true) r.2 ↔ TagsTell r.2)) := by
  refine ⟨fun a ha hw hlen hcount => ?_, fun r hr => ?_, fun n r hr => ?_⟩
  · have hgood := Fsm.answers_good is _ (.idle rfl rfl rfl) a ha
    refine truthful_iff ?_
    rw [hgood.status hlen hw, and_iff_right hcount]
    rfl
  · obtain ⟨hdr, hcpls, hstatus⟩ := Tb.driveTlp_read hr
    refine truthful_iff ?_
    rw [hcpls, List.forall_mem_singleton]
    exact hstatus
  · exact truthful_iff (Tb.readTlps_ok n is r hr).1

def readOnce (hdr : BitVec 128) : List Fsm.Pins :=
  [{ reqValid := true, reqAddr := 0x24, reqLen := 4 }, {}, { tlpReady := true },
   { cplValid := true, cplHdr := hdr }, {}]

theorem readOnce_answer {hdr : BitVec 128} (h : hdr.extractLsb' 45 3 = 0) :
    some ⟨⟨false, 0x24, 4, 0⟩, [hdr], 0⟩ ∈ outputs Fsm.watch { fsm := Fsm.edge {} true {} } (readOnce hdr) := by
  have hlast : outputs Fsm.watch { fsm := Fsm.edge {} true {} } (readOnce hdr) =
      [none, none, none, none, some ⟨⟨false, 0x24, 4, 0⟩, [hdr],
        if ¬ hdr.extractLsb' 45 3 ≠ 0 ∧ (0 : BitVec 2) = 0 then 0 else 3⟩] := rfl
  rw [hlast, h]
  simp

/-- A completion without an error. -/
theorem read_errors_iff_success :
    let hdr := cplHdr (Verilator.makeCompletion 1 4 0 [] 0 4 false)
    some ⟨⟨false, 0x24, 4, 0⟩, [hdr], 0⟩ ∈ outputs Fsm.watch { fsm := Fsm.edge {} true {} } (readOnce hdr) ∧
      Truthful ((0 : BitVec 2) = 0) [hdr] := by
  intro hdr
  have hstatus : cplStatus hdr = 0 := cplStatus_makeCompletion 1 4 0 [] 0 4 false
  have htag : cplTag hdr = 1 := cplTag_makeCompletion 1 4 0 [] 0 4 false
  clear_value hdr
  have hmem := readOnce_answer ((upperTag_eq_zero_iff hdr).2 (by rw [htag]; decide))
  have hlen : 4 ∈ lengths := by decide
  have hcount : 1 = Req.chunks ⟨false, 0x24, 4, 0⟩ := by decide
  refine ⟨hmem, ((read_errors_iff {} {} (readOnce hdr)).1 _ hmem rfl hlen hcount).2 (iff_of_true ?_ ?_)⟩
  · rw [List.forall_mem_singleton, htag]
    decide
  · rw [List.forall_mem_singleton]
    exact hstatus

/-- A completion with an error, as `SendCompletion` makes it: both read paths report success. -/
theorem read_error_lost :
    let hdr := cplHdr (Verilator.makeCompletion 1 0 0 [] 0 4 true)
    cplStatus hdr = 1 ∧
      some ⟨⟨false, 0x24, 4, 0⟩, [hdr], 0⟩ ∈ outputs Fsm.watch { fsm := Fsm.edge {} true {} } (readOnce hdr) ∧
      (∃ r, Tb.driveTlp false (readOnce hdr) = some r ∧ r.completionStatus = 0 ∧ r.cpls = [hdr]) ∧
      ¬ Truthful ((0 : BitVec 2) = 0) [hdr] := by
  intro hdr
  have hstatus : cplStatus hdr = 1 := cplStatus_makeCompletion 1 0 0 [] 0 4 true
  have htag : cplTag hdr = 1 := cplTag_makeCompletion 1 0 0 [] 0 4 true
  clear_value hdr
  have hlow : hdr.extractLsb' 45 3 = 0 := (upperTag_eq_zero_iff hdr).2 (by rw [htag]; decide)
  refine ⟨hstatus, readOnce_answer hlow, ⟨_, rfl, ?_, rfl⟩, fun h => ?_⟩
  · exact if_neg (not_not_intro hlow)
  · have hzero := h.1 rfl hdr List.mem_cons_self
    rw [hstatus] at hzero
    cases hzero

end Alex
end Vip
