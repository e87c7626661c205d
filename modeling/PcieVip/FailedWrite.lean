import PcieVip.LengthChecks
/-!
# FailedWrite — what a write that is answered with an error leaves behind

The Verilator path cuts eight bytes into two TLPs and sends the second whatever the answer to the first.  Where only one
of the two DWs can be written the request fails and that DW is written all the same: CC below 0x10, AQA below 0x20, and
the SQ0 doorbell at 0x1000 (`failed_write_untouched_iff`).  Everywhere else a failed write changes nothing.
-/
namespace Vip
namespace Endpoint

open Alex Bytes Ics Verilator Word

variable {δ : Type}

/-! ## The answer and the doorbell -/

def MainLoop.answer (fab : Fabric) (eng : Engine δ) (s : MainLoop δ) (msg : Message) (c : Script) : StatusCode :=
  let a := access (Alex.env fab eng.host) s.shadow true msg.header.address (MainLoop.length msg)
    (decodeLe msg.payload) ⟨s.harness, (s.engine, c)⟩
  if a.1.2 = 0 then .success else .errorGeneric

/-- The write pulses the doorbell: a latch that is down goes up. -/
def rings (fab : Fabric) (r : Slave) (msg : Message) : Bool :=
  (Harness.mmio fab true msg.header.address (MainLoop.length msg) (decodeLe msg.payload) ⟨r, false⟩).2.doorbellSeen

/-- The write leaves registers, doorbell and variables as they are, and the main loop asks the host for nothing. -/
structure Untouched (fab : Fabric) (eng : Engine δ) (s : MainLoop δ) (msg : Message)
    (answers : List (Option Message)) : Prop where
  slave  : (s.handle fab eng msg ⟨answers, []⟩).1.harness.slave = s.harness.slave
  bell   : rings fab s.harness.slave msg = false
  shadow : (s.handle fab eng msg ⟨answers, []⟩).1.shadow = s.shadow
  quiet  : ∀ o ∈ (s.handle fab eng msg ⟨answers, []⟩).2.log, ∀ t, o.asks t = false

theorem answer_eq (fab : Fabric) (eng : Engine δ) (s : MainLoop δ) (msg : Message) (c : Script) :
    s.answer fab eng msg c ≠ .success ↔
      (s.harness.mmio fab true msg.header.address (MainLoop.length msg)
        (decodeLe msg.payload)).1.elim 5 Prod.snd ≠ 0 := by
  simp only [MainLoop.answer, access_status, Bool.true_eq_false, false_and, if_false]
  by_cases h : (s.harness.mmio fab true msg.header.address (MainLoop.length msg)
    (decodeLe msg.payload)).1.elim 5 Prod.snd = 0
  · rw [if_pos h]
    exact iff_of_false (fun hne => hne rfl) (not_not_intro h)
  · rw [if_neg h]
    exact iff_of_true nofun h

theorem untouched_iff (fab : Fabric) (eng : Engine δ) (s : MainLoop δ) {msg : Message}
    (hw : msg.header.isType .mmioWriteReq = true) (h : ¬ Watched msg.header.address)
    (answers : List (Option Message)) :
    Untouched fab eng s msg answers ↔
      (s.harness.mmio fab true msg.header.address (MainLoop.length msg) (decodeLe msg.payload)).2.slave =
          s.harness.slave ∧
        rings fab s.harness.slave msg = false := by
  have htail : msg.header.address ≠ 0x1054 := by
    intro ht
    rw [ht] at h
    exact h (by decide)
  have hbell : msg.header.address ≠ 0x1000 := by
    intro hb
    rw [hb] at h
    exact h (by decide)
  obtain ⟨hshadow, hslave, hlog⟩ := s.handleWrite_spec fab eng hw htail ⟨answers, []⟩
  constructor
  · intro hu
    exact ⟨hslave.symm.trans hu.slave, hu.bell⟩
  · rintro ⟨hsame, hrings⟩
    refine ⟨hslave.trans hsame, hrings, hshadow.trans (assign_unwatched _ _ h), ?_⟩
    rw [hlog, List.nil_append, if_neg (c := msg.header.address = 0x1000 ∧ _) (fun hc => hbell hc.1)]
    intro o ho t
    rw [List.mem_singleton.1 ho]
    rfl

/-! ## The two DWs of eight bytes -/

theorem takes_iff {a : BitVec 64} :
    Takes a ↔ ∃ d : Dw, d.address = a.toNat % 2 ^ 13 / 4 * 4 ∧ d.isValidWrite = true := by
  simp only [Takes, reached, dwAt_eq_some_iff]

theorem takes_of_watched {address : UInt64} (h : Watched address) : Takes address.toBitVec := by
  simp only [Watched, List.mem_cons, List.not_mem_nil, or_false] at h
  rcases h with rfl | rfl | rfl | rfl | rfl | rfl | rfl | rfl | rfl | rfl
  · exact ⟨.asqLo, rfl, rfl⟩
  · exact ⟨.acqLo, rfl, rfl⟩
  · exact ⟨.descBaseLo, rfl, rfl⟩
  · exact ⟨.descBaseHi, rfl, rfl⟩
  · exact ⟨.cplBaseLo, rfl, rfl⟩
  · exact ⟨.cplBaseHi, rfl, rfl⟩
  · exact ⟨.descCount, rfl, rfl⟩
  · exact ⟨.dmaControl, rfl, rfl⟩
  · exact ⟨.descTail, rfl, rfl⟩
  · exact ⟨.doorbell, rfl, rfl⟩

section Pair

variable {a : BitVec 64}

theorem toNat_add_four_aligned (h : a.toNat % 8 = 0) : (a + 4).toNat = a.toNat + 4 := by
  have hlt := a.isLt
  rw [BitVec.toNat_add]
  change (a.toNat + 4) % 2 ^ 64 = a.toNat + 4
  omega

theorem dw_pair {n : Nat} (h : n % 8 = 0) :
    n % 2 ^ 13 % 8 = 0 ∧ n % 2 ^ 13 / 4 * 4 = n % 2 ^ 13 ∧ (n + 4) % 2 ^ 13 / 4 * 4 = n % 2 ^ 13 + 4 := by
  omega

theorem takes_high_of_low (h : a.toNat % 8 = 0) (hlow : Takes a) : a.toNat % 2 ^ 13 = 0x1000 ∨ Takes (a + 4) := by
  obtain ⟨height, hdw, hnext⟩ := dw_pair h
  rw [takes_iff, hdw] at hlow
  obtain ⟨d, hd, hv⟩ := hlow
  rw [takes_iff, toNat_add_four_aligned h, hnext]
  rw [← hd] at height ⊢
  cases d
  case asqLo      => exact .inr ⟨.asqHi, rfl, rfl⟩
  case acqLo      => exact .inr ⟨.acqHi, rfl, rfl⟩
  case descBaseLo => exact .inr ⟨.descBaseHi, rfl, rfl⟩
  case cplBaseLo  => exact .inr ⟨.cplBaseHi, rfl, rfl⟩
  case descCount  => exact .inr ⟨.descTail, rfl, rfl⟩
  case dmaStatus  => exact .inr ⟨.dmaControl, rfl, rfl⟩
  case cap        => cases hv
  case doorbell   => exact .inl rfl
  -- what is left are DWs that are no low halves
  all_goals cases height

theorem takes_low_of_high (h : a.toNat % 8 = 0) (hhigh : Takes (a + 4)) :
    a.toNat % 2 ^ 13 = 0x10 ∨ a.toNat % 2 ^ 13 = 0x20 ∨ Takes a := by
  obtain ⟨height, hdw, hnext⟩ := dw_pair h
  rw [takes_iff, toNat_add_four_aligned h, hnext] at hhigh
  obtain ⟨d, hd, hv⟩ := hhigh
  have hlow : a.toNat % 2 ^ 13 = d.address - 4 := (Nat.sub_eq_of_eq_add hd).symm
  rw [takes_iff, hdw]
  rw [hlow] at height hd ⊢
  cases d
  case csts       => cases hv
  case asqHi      => exact .inr (.inr ⟨.asqLo, rfl, rfl⟩)
  case acqHi      => exact .inr (.inr ⟨.acqLo, rfl, rfl⟩)
  case descBaseHi => exact .inr (.inr ⟨.descBaseLo, rfl, rfl⟩)
  case cplBaseHi  => exact .inr (.inr ⟨.cplBaseLo, rfl, rfl⟩)
  case descTail   => exact .inr (.inr ⟨.descCount, rfl, rfl⟩)
  case dmaControl => exact .inr (.inr ⟨.dmaStatus, rfl, rfl⟩)
  case aqa        => exact .inr (.inl rfl)
  case cc         => exact .inl rfl
  case cap        => cases hd
  all_goals cases height

theorem not_takes_of_hole (h : a.toNat % 8 = 0) (hm : a.toNat % 2 ^ 13 = 0x10 ∨ a.toNat % 2 ^ 13 = 0x20) :
    ¬ Takes a := by
  rw [takes_iff, (dw_pair h).2.1]
  rintro ⟨d, hd, -⟩
  rw [← hd] at hm
  cases d <;> simp [Dw.address] at hm

theorem not_takes_after_doorbell (h : a.toNat % 8 = 0) (hm : a.toNat % 2 ^ 13 = 0x1000) : ¬ Takes (a + 4) := by
  rw [takes_iff, toNat_add_four_aligned h, (dw_pair h).2.2, hm]
  rintro ⟨d, hd, -⟩
  cases d <;> cases hd

end Pair

/-! ## One request -/

/-- Where only one half of eight bytes is a register, it holds its half of the data; the doorbell holds nothing. -/
structure Settled (r : Slave) (address data : BitVec 64) : Prop where
  cc       : address.toNat % 2 ^ 13 = 0x10 →
    r.cc = hi data ∧ r.csts = (BitVec.ofBool ((hi data).getLsbD 0)).setWidth 32
  aqa      : address.toNat % 2 ^ 13 = 0x20 → r.aqa = hi data
  doorbell : address.toNat % 2 ^ 13 ≠ 0x1000

theorem store_cc (r : Slave) (v : BitVec 32) :
    r.store .cc v (byteEnable 0 4) = { r with cc := v, csts := (BitVec.ofBool (v.getLsbD 0)).setWidth 32 } := by
  have h0 : (byteEnable 0 4).getLsbD 0 = true := by decide
  simp only [Slave.store, applyWstrb_full, h0, if_true]

theorem store_cc_eq_iff (r : Slave) (v : BitVec 32) :
    r.store .cc v (byteEnable 0 4) = r ↔ r.cc = v ∧ r.csts = (BitVec.ofBool (v.getLsbD 0)).setWidth 32 := by
  rw [store_cc]
  constructor
  · intro h
    have hcc := congrArg Slave.cc h
    have hcsts := congrArg Slave.csts h
    exact ⟨hcc.symm, hcsts.symm⟩
  · rintro ⟨hcc, hcsts⟩
    rw [← hcsts, ← hcc]

theorem store_aqa_eq_iff (r : Slave) (v : BitVec 32) : r.store .aqa v (byteEnable 0 4) = r ↔ r.aqa = v := by
  have hstore : r.store .aqa v (byteEnable 0 4) = { r with aqa := v } := by
    rw [store_plain r rfl, applyWstrb_full]
    rfl
  rw [hstore]
  constructor
  · intro h
    have haqa := congrArg Slave.aqa h
    exact haqa.symm
  · intro h
    rw [← h]

section Eight

variable (fab : Fabric) (s : Harness) {address : UInt64} (data : UInt64)

theorem mmio_eight_both (h : Takes address.toBitVec) (h4 : Takes (address.toBitVec + 4)) :
    (s.mmio fab true address 8 data).1 = some (0, 0) := by
  rw [mmio_write_two]
  dsimp only
  rw [memWrite_taken fab _ _ h, memWrite_taken fab _ _ h4, if_pos ⟨rfl, rfl⟩]

theorem mmio_eight_high {d : Dw} (h : ¬ Takes address.toBitVec)
    (hd : reached (address.toBitVec + 4).toNat = some d) (hv : d.isValidWrite = true) (hb : (d == .doorbell) = false)
    (hmod : address.toNat % 8 = 0) :
    s.mmio fab true address 8 data =
      (some (0, 3), ⟨s.slave.store d (hi data.toBitVec) (byteEnable 0 4), s.doorbellSeen⟩) := by
  have hnat := toNat_add_four_aligned (a := address.toBitVec) (by simpa using hmod)
  have hoff : (address.toBitVec + 4).toNat % 4 = 0 := by
    rw [hnat, UInt64.toNat_toBitVec]
    omega
  rw [mmio_write_two]
  dsimp only
  rw [memWrite_refused fab _ _ h, memWrite_makeTlp, hd]
  simp only [hv, if_true, hb, hoff, Bool.or_false]
  rfl

theorem mmio_eight_doorbell (hmod : address.toNat % 8 = 0) (hm : address.toNat % 2 ^ 13 = 0x1000) :
    (s.mmio fab true address 8 data).1 = some (0, 3) ∧ (s.mmio fab true address 8 data).2.doorbellSeen = true := by
  have hr : reached address.toBitVec.toNat = some .doorbell := by
    rw [UInt64.toNat_toBitVec, reached, hm]
    rfl
  have hnext : ¬ Takes (address.toBitVec + 4) := not_takes_after_doorbell (by simpa using hmod) (by simpa using hm)
  rw [mmio_write_two]
  dsimp only
  rw [memWrite_refused fab _ _ hnext, memWrite_makeTlp, hr]
  exact ⟨rfl, by simp [Dw.isValidWrite]⟩

end Eight

section Request

variable (fab : Fabric) (eng : Engine δ) (s : MainLoop δ) {msg : Message} (answers : List (Option Message))

theorem untouched_of_not_taken (hw : msg.header.isType .mmioWriteReq = true)
    (hlen : fab.lenPort (MainLoop.length msg) ∈ lengths)
    (h : ¬ RtlTakes fab msg.header.address (MainLoop.length msg)) : Untouched fab eng s msg answers := by
  have hunwatched : ¬ Watched msg.header.address := fun hwatched => h ⟨hlen, .inl (takes_of_watched hwatched)⟩
  rw [untouched_iff fab eng s hw hunwatched, rings, mmio_not_taken fab _ _ h, mmio_not_taken fab _ _ h]
  exact ⟨rfl, rfl⟩

theorem short_untouched (hw : msg.header.isType .mmioWriteReq = true)
    (hlen : MainLoop.length msg = 1 ∨ MainLoop.length msg = 2 ∨ MainLoop.length msg = 4)
    (hfail : s.answer fab eng msg ⟨answers, []⟩ ≠ .success) : Untouched fab eng s msg answers := by
  obtain ⟨hport, hn⟩ := lenPort_short fab hlen
  apply untouched_of_not_taken fab eng s answers hw
  · rw [hport]
    exact (short_of hn).mem
  rintro ⟨-, htakes | ⟨h8, -⟩⟩
  · rw [answer_eq, mmio_write_one fab _ _ _ hlen] at hfail
    dsimp only at hfail
    rw [memWrite_taken fab _ _ htakes] at hfail
    exact hfail rfl
  · omega

theorem high_untouched_iff (hw : msg.header.isType .mmioWriteReq = true) (hlen : MainLoop.length msg = 8)
    (hmod : msg.header.address.toNat % 8 = 0) {d : Dw} (hlow : ¬ Takes msg.header.address.toBitVec)
    (hd : reached (msg.header.address.toBitVec + 4).toNat = some d) (hv : d.isValidWrite = true)
    (hb : (d == .doorbell) = false) :
    s.answer fab eng msg ⟨answers, []⟩ ≠ .success ∧
      (Untouched fab eng s msg answers ↔
        s.harness.slave.store d (hi (decodeLe msg.payload).toBitVec) (byteEnable 0 4) = s.harness.slave) := by
  have hunwatched : ¬ Watched msg.header.address := fun hwatched => hlow (takes_of_watched hwatched)
  rw [untouched_iff fab eng s hw hunwatched, answer_eq, rings, hlen, mmio_eight_high fab _ _ hlow hd hv hb hmod,
    mmio_eight_high fab _ _ hlow hd hv hb hmod]
  exact ⟨show (3 : UInt32) ≠ 0 by decide, and_iff_left rfl⟩

theorem eight_untouched_iff (hw : msg.header.isType .mmioWriteReq = true) (hlen : MainLoop.length msg = 8)
    (hmod : msg.header.address.toNat % 8 = 0) :
    (s.answer fab eng msg ⟨answers, []⟩ ≠ .success → Untouched fab eng s msg answers) ↔
      Settled s.harness.slave msg.header.address.toBitVec (decodeLe msg.payload).toBitVec := by
  have hport : fab.lenPort (MainLoop.length msg) = 8 := by
    rw [hlen]
    exact fab.lenPort_eq 8 (by decide)
  have hmod' : msg.header.address.toBitVec.toNat % 8 = 0 := by simpa using hmod
  have hnext := toNat_add_four_aligned hmod'
  by_cases hbell : msg.header.address.toNat % 2 ^ 13 = 0x1000
  · -- the doorbell rings
    refine iff_of_false (fun h => ?_) (fun h => h.doorbell (by simpa using hbell))
    obtain ⟨hres, -⟩ := mmio_eight_doorbell fab s.harness (decodeLe msg.payload) hmod hbell
    have hrings := (mmio_eight_doorbell fab ⟨s.harness.slave, false⟩ (decodeLe msg.payload) hmod hbell).2
    have hu := h (by rw [answer_eq, hlen, hres]; exact show (3 : UInt32) ≠ 0 by decide)
    have hquiet := hu.bell
    rw [rings, hlen, hrings] at hquiet
    cases hquiet
  by_cases hcc : msg.header.address.toNat % 2 ^ 13 = 0x10
  · have hreach : reached (msg.header.address.toBitVec + 4).toNat = some .cc := by
      rw [hnext, reached, UInt64.toNat_toBitVec, show (msg.header.address.toNat + 4) % 2 ^ 13 / 4 * 4 = 0x14 by omega]
      rfl
    obtain ⟨hfail, hiff⟩ := high_untouched_iff fab eng s answers hw hlen hmod
      (not_takes_of_hole hmod' (.inl (by simpa using hcc))) hreach rfl rfl
    rw [hiff, store_cc_eq_iff]
    constructor
    · intro h
      exact ⟨fun _ => h hfail, fun ha => absurd hcc (by rw [UInt64.toNat_toBitVec] at ha; omega), by simpa using hbell⟩
    · intro h _
      exact h.cc (by simpa using hcc)
  by_cases haqa : msg.header.address.toNat % 2 ^ 13 = 0x20
  · have hreach : reached (msg.header.address.toBitVec + 4).toNat = some .aqa := by
      rw [hnext, reached, UInt64.toNat_toBitVec, show (msg.header.address.toNat + 4) % 2 ^ 13 / 4 * 4 = 0x24 by omega]
      rfl
    obtain ⟨hfail, hiff⟩ := high_untouched_iff fab eng s answers hw hlen hmod
      (not_takes_of_hole hmod' (.inr (by simpa using haqa))) hreach rfl rfl
    rw [hiff, store_aqa_eq_iff]
    constructor
    · intro h
      exact ⟨fun hc => absurd (by simpa using hc) hcc, fun _ => h hfail, by simpa using hbell⟩
    · intro h _
      exact h.aqa (by simpa using haqa)
  · -- both halves are registers, or neither is
    refine iff_of_true (fun hfail => ?_) ⟨fun h => absurd (by simpa using h) hcc,
      fun h => absurd (by simpa using h) haqa, by simpa using hbell⟩
    apply untouched_of_not_taken fab eng s answers hw (by rw [hport]; decide)
    have hboth : ¬ (Takes msg.header.address.toBitVec ∧ Takes (msg.header.address.toBitVec + 4)) := by
      rintro ⟨hlow, hhigh⟩
      rw [answer_eq, hlen, mmio_eight_both fab _ _ hlow hhigh] at hfail
      exact hfail rfl
    rintro ⟨-, hlow | ⟨-, hhigh⟩⟩
    · rcases takes_high_of_low hmod' hlow with h | h
      · exact hbell (by simpa using h)
      · exact hboth ⟨hlow, h⟩
    · rcases takes_low_of_high hmod' hhigh with h | h | h
      · exact hcc (by simpa using h)
      · exact haqa (by simpa using h)
      · exact hboth ⟨h, hhigh⟩

end Request

/-- **Which failed writes change nothing**: all but those of eight bytes that are half a register and half none, unless
the register holds its half already. -/
theorem failed_write_untouched_iff (fab : Fabric) (eng : Engine δ) (s : MainLoop δ) {msg : Message}
    (hw : msg.header.isType .mmioWriteReq = true)
    (hlen : MainLoop.length msg = 1 ∨ MainLoop.length msg = 2 ∨ MainLoop.length msg = 4 ∨ MainLoop.length msg = 8)
    (halign : msg.header.address.toNat % (MainLoop.length msg).toNat = 0) (answers : List (Option Message)) :
    (s.answer fab eng msg ⟨answers, []⟩ ≠ .success → Untouched fab eng s msg answers) ↔
      (MainLoop.length msg = 8 →
        Settled s.harness.slave msg.header.address.toBitVec (decodeLe msg.payload).toBitVec) := by
  by_cases h8 : MainLoop.length msg = 8
  · rw [eight_untouched_iff fab eng s answers hw h8 (by rw [h8] at halign; exact halign)]
    exact ⟨fun h _ => h, fun h => h h8⟩
  · refine iff_of_true (fun hfail => ?_) (fun h => absurd h h8)
    have hshort : MainLoop.length msg = 1 ∨ MainLoop.length msg = 2 ∨ MainLoop.length msg = 4 := by
      rcases hlen with h | h | h | h
      · exact .inl h
      · exact .inr (.inl h)
      · exact .inr (.inr h)
      · exact absurd h h8
    exact short_untouched fab eng s answers hw hshort hfail

/-- Eight bytes where no register is. -/
theorem failed_write_untouched_unmapped :
    let msg := barWrite 0x40 [1, 0, 0, 0, 0, 0, 0, 0]
    MainLoop.answer Fabric.plain Engine.idle ⟨{}, {}, ()⟩ msg ⟨[], []⟩ ≠ .success ∧
      Untouched Fabric.plain Engine.idle ⟨{}, {}, ()⟩ msg [] := by
  have hfail : MainLoop.answer Fabric.plain Engine.idle ⟨{}, {}, ()⟩ (barWrite 0x40 [1, 0, 0, 0, 0, 0, 0, 0])
      ⟨[], []⟩ ≠ .success := by decide
  refine ⟨hfail, ?_⟩
  refine (failed_write_untouched_iff Fabric.plain Engine.idle ⟨{}, {}, ()⟩ (by decide)
    (.inr (.inr (.inr (by decide)))) (by decide) []).2 (fun _ => ?_) hfail
  exact ⟨by decide, by decide, by decide⟩

/-- Eight bytes at the SQ0 doorbell: an error is reported, and the doorbell register, the doorbell and the DMA of the
main loop have all acted on them. -/
theorem failed_write_rings :
    let msg := barWrite 0x1000 [1, 0, 0, 0, 0, 0, 0, 0]
    let r := MainLoop.handle Fabric.plain Engine.idle ⟨{}, {}, ()⟩ msg ⟨[], []⟩
    msg.header.isType .mmioWriteReq = true ∧ MainLoop.length msg = 8 ∧ msg.header.address.toNat % 8 = 0 ∧
      msg.header.address.toNat + 8 ≤ 0x10000 ∧
      MainLoop.answer Fabric.plain Engine.idle ⟨{}, {}, ()⟩ msg ⟨[], []⟩ ≠ .success ∧
      r.1.harness.slave.doorbellValue = 1 ∧ rings Fabric.plain {} msg = true ∧
      (∃ o ∈ r.2.log, o.asks .dmaReadReq = true) ∧
      ¬ Untouched Fabric.plain Engine.idle ⟨{}, {}, ()⟩ msg [] := by
  have hrings : rings Fabric.plain {} (barWrite 0x1000 [1, 0, 0, 0, 0, 0, 0, 0]) = true := by decide
  refine ⟨by decide, by decide, by decide, by decide, by decide, by decide, hrings, by decide, fun h => ?_⟩
  have hbell := h.bell
  rw [hrings] at hbell
  cases hbell

end Endpoint
end Vip
