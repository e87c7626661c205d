import PcieVip.DriverBatch
/-!
# DriverRing — the driver's tail and the simulator's head

The driver counts its tail from zero in every call, the simulator's `desc_head` lives as long as the simulator.  An
iteration whose tail is two past the head executes its two descriptors, is accepted by the driver's comparison and moves
the head by two (`iteration_ready`), so a first call agrees with the simulator throughout (`Call.first_call`).  The tail
of any later call starts behind the head, so that its first doorbell starts nothing (`Call.later_call`).
-/
namespace Vip
namespace Driver

open Bytes Ics Mem Verilator

variable {ρ : Type}

/-! ## The memory through an iteration -/

theorem read_field {mem : BitVec 64 → UInt8} {a : BitVec 64} {n : Nat} (fs : List (Nat × Nat))
    {gs : List (Nat × Nat)} {f : Nat × Nat} (h : read mem a n = pack (fs ++ f :: gs)) {off : Nat}
    (hoff : (fs.map Prod.fst).sum = off) :
    read mem (a + BitVec.ofNat 64 off) f.1 = leBytes f.1 f.2 := by
  rw [pack_append, pack, ← List.append_assoc] at h
  have hpart := read_part h
  rwa [length_pack, hoff, length_leBytes] at hpart

theorem DmaCpl.load_completion {mem : BitVec 64 → UInt8} {a : BitVec 64} {bytes tag index : UInt32} {flags : UInt8}
    {moved : Bool} (h : read mem a 16 = completion ⟨0, bytes, tag, flags, moved⟩ index) :
    DmaCpl.load mem a = ⟨tag, 0, 0, bytes, index⟩ := by
  rw [completion_eq] at h
  have htag : read mem (a + BitVec.ofNat 64 0) 4 = leBytes 4 tag.toNat := read_field [] h rfl
  have hstatus : read mem (a + BitVec.ofNat 64 4) 2 = leBytes 2 0 := read_field [(4, _)] h rfl
  have hreserved : read mem (a + BitVec.ofNat 64 6) 2 = leBytes 2 0 := read_field [(4, _), (2, _)] h rfl
  have hbytes : read mem (a + BitVec.ofNat 64 8) 4 = leBytes 4 bytes.toNat :=
    read_field [(4, _), (2, _), (2, _)] h rfl
  have hindex : read mem (a + BitVec.ofNat 64 12) 4 = leBytes 4 index.toNat :=
    read_field [(4, _), (2, _), (2, _), (4, _)] h rfl
  rw [show BitVec.ofNat 64 0 = 0#64 from rfl, BitVec.add_zero] at htag
  simp only [DmaCpl.load, htag, hstatus, hreserved, hbytes, hindex]
  rw [leNat_leBytes 4 _ tag.toNat_lt, leNat_leBytes 4 _ bytes.toNat_lt, leNat_leBytes 4 _ index.toNat_lt]
  simp [leBytes, leNat]

theorem desc_valid {d : DmaDesc} {length : UInt32} (hram : d.ramAddr = 0) (hlen : d.length = length.toUInt16)
    (hop : d.opcode = 0 ∨ d.opcode = 1) (h0 : length ≠ 0) (hle : length ≤ 4096) : d.Valid := by
  have hnat := toUInt16_toNat hle
  refine ⟨hram, ?_, ?_, hop⟩
  · intro hz
    rw [← hlen, hz] at hnat
    exact h0 (UInt32.toNat_inj.1 hnat.symm)
  · rw [UInt16.le_iff_toNat_le, hlen, hnat]
    exact UInt32.le_iff_toNat_le.1 hle


section Iteration

variable {length : UInt32} (b : Buffers length.toNat)

theorem length_pattern (n : Nat) : (pattern n).length = n := by simp [pattern]

theorem read_desc_fill (s : System ρ) :
    read (fill b.toAddrs length s).host.mem b.desc.toBitVec 64 = read s.host.mem b.desc.toBitVec 64 := by
  have h1 : Apart b.desc.toBitVec 64 b.src.toBitVec (pattern length.toNat).length := by
    rw [length_pattern]; exact b.desc_src
  have h2 : Apart b.desc.toBitVec 64 b.dst.toBitVec (List.replicate length.toNat (0 : UInt8)).length := by
    rw [List.length_replicate]; exact b.desc_dst
  have h3 : Apart b.desc.toBitVec 64 b.cpl.toBitVec (List.replicate 32 (0 : UInt8)).length := b.desc_cpl
  unfold fill fillMem
  dsimp only
  rw [read_write_apart _ h1, read_write_apart _ h2, read_write_apart _ h3]

theorem read_src_fill (hle : length.toNat ≤ 4096) (s : System ρ) :
    read (fill b.toAddrs length s).host.mem b.src.toBitVec length.toNat = pattern length.toNat := by
  unfold fill fillMem
  exact read_write_same _ _ (length_pattern _) (by omega)

/-- The memory after a batch: the first completion, the data, the second completion. -/
def batchMem (a : Addrs) (length head : UInt32) (mem : BitVec 64 → UInt8) : BitVec 64 → UInt8 :=
  let c0 := completion ⟨0, length, 0x100, 0, true⟩ head
  let c1 := completion ⟨0, length, 0x101, 1, true⟩ (head + 1)
  write (write (write mem a.cpl.toBitVec c0) a.dst.toBitVec (read mem a.src.toBitVec length.toNat))
    (a.cpl + 16).toBitVec c1

theorem cpl_second_apart {n : Nat} {x : BitVec 64} (h : Apart b.cpl.toBitVec 32 x n) :
    Apart x n (b.cpl + 16).toBitVec 16 :=
  (h.part 16 16 (by decide)).symm

theorem cpl_first_apart {n : Nat} {x : BitVec 64} (h : Apart b.cpl.toBitVec 32 x n) : Apart x n b.cpl.toBitVec 16 :=
  fun i hi j hj heq => h j (by omega) i hi heq.symm

theorem cpl_parts_apart : Apart b.cpl.toBitVec 16 (b.cpl + 16).toBitVec 16 := by
  have h := apart_parts b.cpl.toBitVec (i := 0) (n := 16) (j := 16) (k := 16) (by decide) (by decide)
  rwa [show BitVec.ofNat 64 0 = 0#64 from rfl, BitVec.add_zero] at h

theorem read_desc_batchMem (head : UInt32) (mem : BitVec 64 → UInt8) :
    read (batchMem b.toAddrs length head mem) b.desc.toBitVec 64 = read mem b.desc.toBitVec 64 := by
  unfold batchMem
  dsimp only
  rw [read_write_apart, read_write_apart, read_write_apart]
  · rw [length_completion]
    exact cpl_first_apart b b.desc_cpl.symm
  · rw [length_read]
    exact b.desc_dst
  · rw [length_completion]
    exact cpl_second_apart b b.desc_cpl.symm

/-- **The driver accepts what a batch wrote.** -/
theorem verify_batchMem (hle : length.toNat ≤ 4096) (head : UInt32) (mem : BitVec 64 → UInt8)
    (hsrc : read mem b.src.toBitVec length.toNat = pattern length.toNat) :
    verify b.toAddrs length (batchMem b.toAddrs length head mem) = true := by
  have hdst : read (batchMem b.toAddrs length head mem) b.dst.toBitVec length.toNat = pattern length.toNat := by
    unfold batchMem
    dsimp only
    rw [read_write_apart _ (by rw [length_completion]; exact cpl_second_apart b b.cpl_dst),
      read_write_same _ _ (length_read _ _ _) (by omega), hsrc]
  have hcpl0 : read (batchMem b.toAddrs length head mem) b.cpl.toBitVec 16 =
      completion ⟨0, length, 0x100, 0, true⟩ head := by
    unfold batchMem
    dsimp only
    rw [read_write_apart _ (by rw [length_completion]; exact cpl_parts_apart b),
      read_write_apart _ (by rw [length_read]; exact (cpl_first_apart b b.cpl_dst).symm),
      read_write_same _ _ (length_completion _ _) (by decide)]
  have hcpl1 : read (batchMem b.toAddrs length head mem) (b.cpl.toBitVec + BitVec.ofNat 64 16) 16 =
      completion ⟨0, length, 0x101, 1, true⟩ (head + 1) :=
    read_write_same _ _ (length_completion _ _) (by decide)
  unfold verify
  rw [DmaCpl.load_completion hcpl0, DmaCpl.load_completion hcpl1, hdst]
  simp [cplOk]

theorem after_readDesc (hle : length ≤ 4096) (head : UInt32) (s : Host ρ) :
    (readDesc b.toAddrs length).after b.cpl head s =
      { s with mem := write s.mem b.cpl.toBitVec (completion ⟨0, length, 0x100, 0, true⟩ head)
               ram := write s.ram 0 (read s.mem b.src.toBitVec length.toNat) } := by
  simp [DmaDesc.after, DmaDesc.move, readDesc, toUInt16_toNat hle, toUInt16_toUInt32 hle]

theorem after_writeDesc (hle : length ≤ 4096) (head : UInt32) (s : Host ρ) :
    (writeDesc b.toAddrs length).after (b.cpl + 16) (head + 1) ((readDesc b.toAddrs length).after b.cpl head s) =
      { s with mem := batchMem b.toAddrs length head s.mem
               ram := write s.ram 0 (read s.mem b.src.toBitVec length.toNat)
               irqDone := s.irqDone + 1
               msix := s.msix + 1 } := by
  have hle' : length.toNat ≤ 4096 := UInt32.le_iff_toNat_le.1 hle
  have hread : read (write s.ram (0#16) (read s.mem b.src.toBitVec length.toNat)) (0#16) length.toNat =
      read s.mem b.src.toBitVec length.toNat := read_write_same _ _ (length_read _ _ _) (by omega)
  rw [after_readDesc b hle]
  simp [DmaDesc.after, DmaDesc.move, writeDesc, toUInt16_toNat hle, toUInt16_toUInt32 hle, hread, batchMem]

/-! ## The two indices -/

/-- The ring of a call is programmed and the simulator's head stands at `head`. -/
structure Ready (head : UInt32) (s : System ρ) : Prop where
  descBase   : s.shadow.descBase = b.desc
  cplBase    : s.shadow.cplBase = b.cpl
  descCount  : s.shadow.descCount = 2
  dmaControl : s.shadow.dmaControl = 1
  dmaStatus  : s.shadow.dmaStatus = 0
  descHead   : s.shadow.descHead = head
  desc       : read s.host.mem b.desc.toBitVec 64 = descBytes b.toAddrs length

theorem runGenericDma_ready (rtl : Rtl ρ) (h0 : length ≠ 0) (hle : length ≤ 4096) {head : UInt32}
    (heven : head.toNat % 2 = 0) (hlt : head.toNat + 2 < 2 ^ 32) (s : Host ρ)
    (hdesc : read s.mem b.desc.toBitVec 64 = descBytes b.toAddrs length) :
    runGenericDma (hostEnv rtl) b.desc b.cpl 2 (head + 2) head s =
      ⟨true, head + 2, [⟨head, true, 0⟩, ⟨head + 1, true, 0⟩],
        { s with mem := batchMem b.toAddrs length head s.mem
                 ram := write s.ram 0 (read s.mem b.src.toBitVec length.toNat)
                 irqDone := s.irqDone + 1
                 msix := s.msix + 1 }⟩ := by
  have hparts := hdesc
  rw [descBytes, read_add s.mem b.desc.toBitVec 32 32] at hparts
  obtain ⟨hfirst, hsecond⟩ := List.append_inj hparts (by simp)
  have hkeep : read ((readDesc b.toAddrs length).after b.cpl head s).mem (b.desc + 32).toBitVec 32 =
      read s.mem (b.desc.toBitVec + BitVec.ofNat 64 32) 32 := by
    have hapart := b.desc_cpl.part 32 32 (by decide)
    rw [after_readDesc b hle]
    exact read_write_apart _ (by rw [length_completion]; exact cpl_first_apart b hapart.symm)
  rw [runGenericDma_pair rtl (desc_valid rfl rfl (Or.inl rfl) h0 hle) (desc_valid rfl rfl (Or.inr rfl) h0 hle) b.desc
    b.cpl heven hlt s hfirst (hkeep.trans hsecond), after_writeDesc b hle head s]

/-- **An iteration whose tail is two past the simulator's head** succeeds and moves the head by two. -/
theorem iteration_ready (rtl : Rtl ρ) (h0 : length ≠ 0) (hle : length ≤ 4096) {head : UInt32} {s : System ρ}
    (hs : Ready b head s) (heven : head.toNat % 2 = 0) (hlt : head.toNat + 2 < 2 ^ 32) :
    ∃ s', iteration rtl b.toAddrs length (head + 2) s = (0, s') ∧ Ready b (head + 2) s' ∧
      s'.tailWrites = s.tailWrites ++ [⟨[⟨head, true, 0⟩, ⟨head + 1, true, 0⟩], 1⟩] := by
  have hle' : length.toNat ≤ 4096 := UInt32.le_iff_toNat_le.1 hle
  obtain ⟨t, ht, hpoll⟩ := pollStatus_idle rtl 49 (fill b.toAddrs length s) hs.dmaStatus
  have hmem : t.mem = (fill b.toAddrs length s).host.mem := ht.mem
  obtain ⟨u, hu, htail⟩ := iowrite32_tail rtl (head + 2)
    (System.setIrqDone { fill b.toAddrs length s with host := t } 0) hs.dmaControl hs.descCount
  have humem : u.mem = (fill b.toAddrs length s).host.mem := hu.mem.trans hmem
  have hirq : u.irqDone = 0 := hu.irqDone
  have hmsix : u.msix = t.msix := hu.msix
  have hbatch := runGenericDma_ready b rtl h0 hle heven hlt u (by rw [humem, read_desc_fill, hs.desc])
  have hshadow : (System.setIrqDone { fill b.toAddrs length s with host := t } 0).shadow = s.shadow := rfl
  rw [hshadow, hs.descBase, hs.cplBase, hs.descCount, hs.descHead, hbatch] at htail
  have hverify := verify_batchMem b hle' head u.mem (by rw [humem, read_src_fill b hle'])
  unfold iteration
  dsimp only at htail ⊢
  rw [hpoll]
  dsimp only
  rw [if_pos rfl, htail]
  dsimp only [System.setIrqDone]
  rw [hirq, if_neg (by decide)]
  simp only [hverify, if_true]
  refine ⟨_, rfl, ⟨hs.descBase, hs.cplBase, hs.descCount, hs.dmaControl, rfl, rfl, ?_⟩, ?_⟩
  · dsimp only
    rw [read_desc_batchMem, humem, read_desc_fill, hs.desc]
  · dsimp only
    rw [hmsix, Nat.add_sub_cancel_left]
    rfl

theorem iterate_ready (rtl : Rtl ρ) (h0 : length ≠ 0) (hle : length ≤ 4096) :
    ∀ (n : Nat) (iter head : UInt32) (s : System ρ), Ready b head s → head.toNat % 2 = 0 →
      head.toNat + 2 * n < 2 ^ 32 →
      ∃ c s' ts, iterate rtl b.toAddrs length n iter head s = (0, c, s') ∧
        s'.shadow.descHead.toNat = head.toNat + 2 * n ∧ s'.shadow.dmaStatus = 0 ∧
        s'.tailWrites = s.tailWrites ++ ts ∧ ts.length = n ∧ ∀ t ∈ ts, t.Exact
  | 0, iter, head, s, hs, _, _             => by
    refine ⟨iter, s, [], rfl, ?_, hs.dmaStatus, by simp, rfl, by simp⟩
    rw [hs.descHead]
    omega
  | n + 1, iter, head, s, hs, heven, hlt => by
    have hadd : (head + 2).toNat = head.toNat + 2 := toNat_add_two (by omega)
    obtain ⟨s1, hiter, hready, hlog⟩ := iteration_ready b rtl h0 hle hs heven (by omega)
    obtain ⟨c, s', ts, hrest, hhead, hstatus, hlog', hlen, hexact⟩ :=
      iterate_ready rtl h0 hle n (iter + 1) (head + 2) s1 hready (by omega) (by omega)
    refine ⟨c, s', ⟨[⟨head, true, 0⟩, ⟨head + 1, true, 0⟩], 1⟩ :: ts, ?_, by omega, hstatus, ?_,
      by rw [List.length_cons, hlen], ?_⟩
    · simp only [iterate, hiter, if_true, hrest]
    · rw [hlog', hlog, List.append_assoc, List.singleton_append]
    · intro t ht
      rcases List.mem_cons.1 ht with rfl | ht
      · have hslot0 := slot_even heven
        have hslot1 := slot_odd heven (by omega)
        exact ⟨by simp only [List.map_cons, List.map_nil, hslot0, hslot1], rfl⟩
      · exact hexact t ht

/-- **A tail that the simulator has already passed** starts nothing, and the wait times out. -/
theorem iteration_stale (rtl : Rtl ρ) (a : Addrs) {tail : UInt32} {s : System ρ} (hcount : s.shadow.descCount = 2)
    (hcontrol : s.shadow.dmaControl = 1) (hstatus : s.shadow.dmaStatus = 0) (h : tail ≤ s.shadow.descHead) :
    (iteration rtl a length tail s).1 = -eTimedOut := by
  obtain ⟨t, ht, hpoll⟩ := pollStatus_idle rtl 49 (fill a length s) hstatus
  obtain ⟨u, hu, htail⟩ := iowrite32_tail rtl tail (System.setIrqDone { fill a length s with host := t } 0)
    hcontrol hcount
  have hshadow : (System.setIrqDone { fill a length s with host := t } 0).shadow = s.shadow := rfl
  have hirq : u.irqDone = 0 := hu.irqDone
  dsimp only at htail
  rw [hshadow, runGenericDma_behind rtl _ _ h] at htail
  unfold iteration
  dsimp only
  rw [hpoll]
  dsimp only
  rw [if_pos rfl, htail, if_pos hirq]

end Iteration

/-! ## Calls one after another -/

namespace Call

variable (c : Call)

theorem usedLength_pos : c.cfg.usedLength ≠ 0 := by
  unfold RunConfig.usedLength
  split
  · assumption
  · decide

theorem usedLength_le : c.cfg.usedLength ≤ 4096 := by
  unfold RunConfig.usedLength
  split
  · exact c.lengthOk
  · decide

theorem usedIterations_pos : c.cfg.usedIterations ≠ 0 := by
  unfold RunConfig.usedIterations
  split
  · assumption
  · decide

theorem usedIterations_le : c.cfg.usedIterations ≤ 1024 := by
  unfold RunConfig.usedIterations
  split
  · exact c.iterOk
  · decide

def started (rtl : Rtl ρ) (s : System ρ) : System ρ :=
  program rtl c.buffers.toAddrs (s.store c.buffers.desc (descBytes c.buffers.toAddrs c.cfg.usedLength))

theorem runConfig_eq (rtl : Rtl ρ) (s : System ρ) :
    let r := iterate rtl c.buffers.toAddrs c.cfg.usedLength c.cfg.usedIterations.toNat 0 0 (c.started rtl s)
    runConfig rtl c.cfg (some c.buffers.toAddrs) c.clock s =
      ⟨r.1, { c.cfg with completed := r.2.1, lastStatus := if r.1 ≠ 0 then UInt32.ofNat (-r.1).toNat else 0
                         elapsedNs := c.clock.2 - c.clock.1 }, r.2.2⟩ := by
  have hguard : ¬ (c.cfg.usedLength = 0 ∨ c.cfg.usedLength > 4096 ∨ c.cfg.usedIterations = 0 ∨
      c.cfg.usedIterations > 1024) := by
    have h1 := c.usedLength_pos
    have h2 := UInt32.not_lt.2 c.usedLength_le
    have h3 := c.usedIterations_pos
    have h4 := UInt32.not_lt.2 c.usedIterations_le
    simp only [gt_iff_lt, h1, h2, h3, h4, or_self, not_false_eq_true]
  unfold runConfig
  dsimp only
  rw [if_neg hguard]
  rfl

theorem started_shadow (rtl : Rtl ρ) (s : System ρ) :
    (c.started rtl s).shadow = { s.shadow with descBase := c.buffers.desc, cplBase := c.buffers.cpl, descCount := 2
                                               dmaControl := 1 } := by
  obtain ⟨t, ht, heq⟩ := program_eq rtl c.buffers.toAddrs
    (s.store c.buffers.desc (descBytes c.buffers.toAddrs c.cfg.usedLength))
  rw [started, heq]
  rfl

/-- **The first call on a fresh simulator** returns zero with every doorbell exact, and leaves the head at twice its
iterations. -/
theorem first_call (rtl : Rtl ρ) {s : System ρ} (hhead : s.shadow.descHead = 0) (hstatus : s.shadow.dmaStatus = 0)
    (hlog : s.tailWrites = []) :
    let r := runConfig rtl c.cfg (some c.buffers.toAddrs) c.clock s
    Outcome.Agrees ⟨r.ret, r.cfg, r.system.tailWrites⟩ ∧
      r.system.shadow.descHead.toNat = 2 * c.cfg.usedIterations.toNat ∧ r.system.shadow.dmaStatus = 0 := by
  have hiter : c.cfg.usedIterations.toNat ≤ 1024 := UInt32.le_iff_toNat_le.1 c.usedIterations_le
  obtain ⟨t, ht, heq⟩ := program_eq rtl c.buffers.toAddrs
    (s.store c.buffers.desc (descBytes c.buffers.toAddrs c.cfg.usedLength))
  have hready : Ready c.buffers 0 (c.started rtl s) := by
    rw [started, heq]
    refine ⟨rfl, rfl, rfl, rfl, hstatus, hhead, ?_⟩
    dsimp only
    rw [ht.mem]
    exact read_write_same _ _ (by simp [descBytes]) (by decide)
  have hstart : (c.started rtl s).tailWrites = [] := by
    rw [started, heq]
    exact hlog
  obtain ⟨n, s', ts, hrun, hhead', hstatus', hlog', hlen, hexact⟩ := iterate_ready c.buffers rtl c.usedLength_pos
    c.usedLength_le c.cfg.usedIterations.toNat 0 0 (c.started rtl s) hready rfl (by simp; omega)
  rw [hstart, List.nil_append] at hlog'
  dsimp only
  rw [c.runConfig_eq rtl s, hrun]
  dsimp only
  rw [hlog', hhead']
  refine ⟨⟨rfl, hlen, hexact⟩, by simp, hstatus'⟩

/-- **A call on a simulator whose head has moved** times out. -/
theorem later_call (rtl : Rtl ρ) {s : System ρ} (hhead : 2 ≤ s.shadow.descHead) (hstatus : s.shadow.dmaStatus = 0) :
    (runConfig rtl c.cfg (some c.buffers.toAddrs) c.clock s).ret = -eTimedOut := by
  obtain ⟨n, hn⟩ : ∃ n, c.cfg.usedIterations.toNat = n + 1 := by
    refine Nat.exists_eq_succ_of_ne_zero (fun h => c.usedIterations_pos ?_)
    exact UInt32.toNat_inj.1 h
  have hstale : (iteration rtl c.buffers.toAddrs c.cfg.usedLength (0 + 2) (c.started rtl s)).1 = -eTimedOut := by
    apply iteration_stale
    all_goals rw [started_shadow]
    · exact hstatus
    · exact hhead
  rw [c.runConfig_eq rtl s, hn]
  dsimp only [iterate]
  rw [hstale, if_neg (by decide)]

end Call

/-- **Driver and simulator agree on the ring for one call and no more.**  From a fresh simulator, over any memory and
any RTL, every call of a sequence returns zero with each of its doorbells exact if and only if the sequence has at
most one call. -/
theorem ring_agrees_iff (rtl : Rtl ρ) (host : Host ρ) (calls : List Call) :
    (∀ o ∈ runCalls rtl ⟨{}, host, []⟩ calls, o.Agrees) ↔ calls.length ≤ 1 := by
  match calls with
  | []           => simp [runCalls]
  | [c]          =>
    have h := (c.first_call rtl (s := ⟨{}, host, []⟩) rfl rfl rfl).1
    simpa [runCalls] using h
  | c :: d :: cs =>
    obtain ⟨-, hhead, hstatus⟩ := c.first_call rtl (s := ⟨{}, host, []⟩) rfl rfl rfl
    refine iff_of_false (fun hall => ?_) (by simp)
    have hsecond := (hall _ (List.mem_cons_of_mem _ List.mem_cons_self)).1
    have hmoved : 0 < c.cfg.usedIterations.toNat :=
      Nat.pos_of_ne_zero (fun h => c.usedIterations_pos (UInt32.toNat_inj.1 h))
    have hlate := d.later_call rtl
      (s := { (runConfig rtl c.cfg (some c.buffers.toAddrs) c.clock ⟨{}, host, []⟩).system with tailWrites := [] })
      (UInt32.le_iff_toNat_le.2 (by rw [hhead]; simp; omega)) hstatus
    exact absurd (hlate.symm.trans hsecond) (by decide)

def sampleCall : Call where
  cfg := { length := 64, iterations := 1 }
  lengthOk := by decide
  iterOk := by decide
  buffers :=
    { desc := 0x1000, cpl := 0x2000, src := 0x3000, dst := 0x4000
      desc_cpl := apart_of_le (by decide) (by decide)
      desc_src := apart_of_le (by decide) (by decide)
      desc_dst := apart_of_le (by decide) (by decide)
      cpl_src := apart_of_le (by decide) (by decide)
      cpl_dst := apart_of_le (by decide) (by decide)
      src_dst := apart_of_le (by decide) (by decide) }

def sampleRtl : Rtl Unit where
  mmio _ _ _ _ s := (some (0, 0), s)
  reset s := s
  doorbellSeen _ := false
  clearDoorbell s := s
  simTime _ := 0

def sampleHost : Host Unit := ⟨fun _ => 0, fun _ => 0, 0, none, (), 0⟩

/-- The same call twice: the doorbell of the second starts nothing, raises no interrupt, and the call times out. -/
theorem not_ring_agrees :
    ¬ ∀ (rtl : Rtl Unit) (host : Host Unit) (calls : List Call),
      ∀ o ∈ runCalls rtl ⟨{}, host, []⟩ calls, o.Agrees := by
  intro hall
  have hrun : (runCalls sampleRtl ⟨{}, sampleHost, []⟩ [sampleCall, sampleCall]).map (fun o => (o.ret, o.tailWrites)) =
      [(0, [⟨[⟨0, true, 0⟩, ⟨1, true, 0⟩], 1⟩]), (-110, [⟨[], 0⟩])] := by decide +kernel
  have hmem : ((-110 : Int), [(⟨[], 0⟩ : TailWrite)]) ∈
      (runCalls sampleRtl ⟨{}, sampleHost, []⟩ [sampleCall, sampleCall]).map (fun o => (o.ret, o.tailWrites)) := by
    rw [hrun]
    simp
  obtain ⟨o, ho, heq⟩ := List.mem_map.1 hmem
  have hret : o.ret = -110 := congrArg Prod.fst heq
  have hzero := (hall sampleRtl sampleHost [sampleCall, sampleCall] o ho).1
  rw [hret] at hzero
  exact absurd hzero (by decide)

end Driver
end Vip
