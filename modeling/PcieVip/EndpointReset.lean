import PcieVip.EndpointEquiv
/-!
# EndpointReset — what a reset leaves behind

Two histories that end in a RESET_REQ, and the same requests and host answers after it.  The software model then gives
the same outputs in both runs.  `mini_ics_endpoint_model` and `mini_ics_alex_tb` only answer the reset, so they do if
and only if their registers were the same before it.  The Verilator main loop resets the RTL but neither its own
variables nor the doorbell latch of the harness, so it does if those were the same (`reset_erases_history`).
-/
namespace Vip
namespace Endpoint

open Alex Bytes Ics Serve Verilator Word

/-! ## What is compared -/

/-- An output without its timestamp and transaction ID. -/
def Out.timeless : Out → Out
  | .response h payload => .response { h with txnId := 0, simTimestamp := 0 } payload
  | o                   => o

/-- Once a reset has ended them, the two histories cannot be told apart. -/
def Forgets {σ : Type} (handle : σ → Message → Script → σ × Script) (s : σ)
    (h₁ h₂ : List (Message × List (Option Message))) : Prop :=
  ∀ m₁ m₂ a₁ a₂, m₁.header.isType .resetReq = true → m₂.header.isType .resetReq = true → ∀ later,
    outputs (serve Out.timeless handle) (after (serve Out.timeless handle) s (h₁ ++ [(m₁, a₁)])) later =
      outputs (serve Out.timeless handle) (after (serve Out.timeless handle) s (h₂ ++ [(m₂, a₂)])) later

section Forgets

variable {σ : Type} {handle : σ → Message → Script → σ × Script} {s : σ}
  {h₁ h₂ : List (Message × List (Option Message))}

theorem forgets_of_sim {R : σ → σ → Prop}
    (hreset : ∀ m₁ m₂ c₁ c₂, m₁.header.isType .resetReq = true → m₂.header.isType .resetReq = true →
      R (handle (after (serve Out.timeless handle) s h₁) m₁ c₁).1
        (handle (after (serve Out.timeless handle) s h₂) m₂ c₂).1)
    (hstep : ∀ s t i, R s t → R (serve Out.timeless handle s i).1 (serve Out.timeless handle t i).1 ∧
      (serve Out.timeless handle s i).2 = (serve Out.timeless handle t i).2) : Forgets handle s h₁ h₂ := by
  intro m₁ m₂ a₁ a₂ hm₁ hm₂ later
  rw [after_concat, after_concat]
  exact outputs_eq_of_sim (R := R) (P := fun _ => True) (fun s t i hr _ => hstep s t i hr) later _ _
    (fun _ _ => trivial) (hreset m₁ m₂ _ _ hm₁ hm₂)

def resetRequest : Message := ⟨makeHeader .resetReq 2 0 0 .success 0 0, []⟩

theorem Forgets.next (h : Forgets handle s h₁ h₂) (hkeep : ∀ s c, (handle s resetRequest c).1 = s)
    (i : Message × List (Option Message)) :
    (serve Out.timeless handle (after (serve Out.timeless handle) s h₁) i).2 =
      (serve Out.timeless handle (after (serve Out.timeless handle) s h₂) i).2 := by
  have hlater := h resetRequest resetRequest [] [] rfl rfl [i]
  rw [after_concat, after_concat, outputs_singleton, outputs_singleton] at hlater
  have hfirst := (List.cons.inj hlater).1
  simp only [serve] at hfirst ⊢
  rwa [hkeep, hkeep] at hfirst

end Forgets

/-! ## SoftwareEndpointModel -/

def Software.Alike (s t : Software) : Prop := ∃ time, t = { s with simTime := time }

theorem Software.store_simTime (s : Software) (time : UInt64) (addr : UInt64) (payload : List UInt8) :
    { s with simTime := time }.store addr payload =
      ((s.store addr payload).1, { (s.store addr payload).2 with simTime := time }) := by
  let R := fun x y : StatusCode × Software => x = (y.1, { y.2 with simTime := time })
  change R _ _
  unfold Software.store
  -- none of the seven tests looks at the clock
  iterate 7
    refine rel_ite R (fun _ => rfl) (fun _ => ?_)
  rfl

theorem Software.Alike.handle {s t : Software} (h : s.Alike t) (i : Message × List (Option Message)) :
    (serve Out.timeless Software.handle s i).1.Alike (serve Out.timeless Software.handle t i).1 ∧
      (serve Out.timeless Software.handle s i).2 = (serve Out.timeless Software.handle t i).2 := by
  obtain ⟨time, rfl⟩ := h
  obtain ⟨msg, answers⟩ := i
  unfold serve Software.handle
  dsimp only
  split_ifs with hreset hwrite hread
  · exact ⟨⟨_, rfl⟩, rfl⟩
  · obtain ⟨⟨t₁, hs₁⟩, hlog₁⟩ := (s.tick 15).handleMmioWrite_spec msg ⟨answers, []⟩
    obtain ⟨⟨t₂, hs₂⟩, hlog₂⟩ := ({ s with simTime := time }.tick 15).handleMmioWrite_spec msg ⟨answers, []⟩
    have htick : ({ s with simTime := time } : Software).tick 15 = { s.tick 15 with simTime := time + 15 } := rfl
    rw [htick, Software.store_simTime] at hs₂ hlog₂
    rw [htick, hs₁, hs₂, hlog₁, hlog₂]
    exact ⟨⟨_, rfl⟩, rfl⟩
  · have hload : (({ s with simTime := time } : Software).tick 15).load msg = (s.tick 15).load msg := rfl
    unfold Software.handleMmioRead
    dsimp only
    rw [hload]
    exact ⟨⟨_, rfl⟩, rfl⟩
  · exact ⟨⟨_, rfl⟩, rfl⟩

theorem Software.handle_idle (s : Software) (i : Message × List (Option Message)) (h : s.doorbellRung = false) :
    (serve Out.timeless Software.handle s i).1.doorbellRung = false := by
  unfold serve Software.handle
  dsimp only
  split_ifs with hreset hwrite hread
  · exact h
  · obtain ⟨⟨t, hs⟩, -⟩ := (s.tick 15).handleMmioWrite_spec i.1 ⟨i.2, []⟩
    rw [hs]
  · exact h
  · exact h

/-- **The software model forgets.** -/
theorem Software.forgets (h₁ h₂ : List (Message × List (Option Message))) : Forgets Software.handle {} h₁ h₂ := by
  refine forgets_of_sim (R := Software.Alike) ?_ (fun s t i h => h.handle i)
  intro m₁ m₂ c₁ c₂ hm₁ hm₂
  have hidle : ∀ h, (after (serve Out.timeless Software.handle) {} h).doorbellRung = false :=
    fun h => after_invariant Software.handle_idle h {} rfl
  simp only [Software.handle, hm₁, hm₂, if_true, Software.handleReset, Software.tick]
  exact ⟨_, by rw [hidle, hidle]⟩

/-! ## mini_ics_endpoint_model -/

/-- The registers that show: the value of the doorbell does not. -/
def NvmeRegs.shown (r : NvmeRegs) : NvmeRegs := { r with doorbellValue := 0 }

theorem NvmeRegs.eq_of_shown {r r' : NvmeRegs} (h : r.shown = r'.shown) :
    ∃ v, r' = { r with doorbellValue := v } := by
  cases r
  cases r'
  simp only [NvmeRegs.shown, NvmeRegs.mk.injEq] at h
  obtain ⟨rfl, rfl, rfl, rfl, rfl, -⟩ := h
  exact ⟨_, rfl⟩

theorem NvmeRegs.write_shown (r : NvmeRegs) (v : UInt32) (addr wdata : UInt64) :
    ∃ v', { r with doorbellValue := v }.write addr wdata =
      ((r.write addr wdata).1, { (r.write addr wdata).2 with doorbellValue := v' }) := by
  let R := fun x y : RegRsp × NvmeRegs => ∃ v', x = (y.1, { y.2 with doorbellValue := v' })
  change R _ _
  unfold NvmeRegs.write
  iterate 6
    refine rel_ite R (fun _ => ⟨_, rfl⟩) (fun _ => ?_)
  exact ⟨_, rfl⟩

theorem NvmeRegs.shown_step (undef : Undef) {r r' : NvmeRegs} (h : r.shown = r'.shown)
    (i : Message × List (Option Message)) :
    let step := serve Out.timeless (NvmeRegs.pollAndDispatch undef)
    (step r i).1.shown = (step r' i).1.shown ∧ (step r i).2 = (step r' i).2 := by
  obtain ⟨v, rfl⟩ := NvmeRegs.eq_of_shown h
  unfold serve NvmeRegs.pollAndDispatch
  dsimp only
  split_ifs with hwrite hread hreset
  · obtain ⟨hs, hlog⟩ := r.handleMmioWrite_spec i.1.header.txnId i.1.header.address
      (payloadBytes undef i.1.payload i.1.header.transferLen) ⟨i.2, []⟩
    obtain ⟨hs', hlog'⟩ := { r with doorbellValue := v }.handleMmioWrite_spec i.1.header.txnId i.1.header.address
      (payloadBytes undef i.1.payload i.1.header.transferLen) ⟨i.2, []⟩
    obtain ⟨v', hwrite'⟩ := r.write_shown v i.1.header.address
      (decodeLe (payloadBytes undef i.1.payload i.1.header.transferLen))
    rw [hs, hs', hlog, hlog', hwrite']
    exact ⟨rfl, rfl⟩
  · have hsame : { r with doorbellValue := v }.read i.1.header.address = r.read i.1.header.address := rfl
    unfold NvmeRegs.handleMmioRead
    dsimp only
    rw [hsame]
    split <;> exact ⟨rfl, rfl⟩
  · exact ⟨rfl, rfl⟩
  · exact ⟨rfl, rfl⟩

theorem encodeLe_inj {v w : UInt64} (h : encodeLe v 8 = encodeLe w 8) : v = w := by
  have hbytes : ∀ x : UInt64, leNat (encodeLe x 8) = x.toNat := by
    intro x
    exact (congrArg leNat (bytes_eq x (Nat.le_refl 8))).trans (leNat_leBytes 8 _ x.toNat_lt)
  exact UInt64.toNat_inj.1 (by rw [← hbytes v, h, hbytes])

theorem NvmeRegs.read_of_shown (undef : Undef) {r r' : NvmeRegs} {addr : UInt64}
    (h : (serve Out.timeless (NvmeRegs.pollAndDispatch undef) r (barRead addr 8, [])).2 =
      (serve Out.timeless (NvmeRegs.pollAndDispatch undef) r' (barRead addr 8, [])).2)
    (hr : (r.read addr).addrInvalid = false) (hr' : (r'.read addr).addrInvalid = false) :
    (r.read addr).rdata = (r'.read addr).rdata := by
  have hout : ∀ x : NvmeRegs, (x.read addr).addrInvalid = false →
      ∃ hd, (serve Out.timeless (NvmeRegs.pollAndDispatch undef) x (barRead addr 8, [])).2 =
        [.response hd (encodeLe (x.read addr).rdata 8)] := by
    intro x hx
    have hw : (barRead addr 8).header.isType .mmioWriteReq = false := rfl
    have hr : (barRead addr 8).header.isType .mmioReadReq = true := rfl
    have haddr : (barRead addr 8).header.address = addr := rfl
    rw [← rdata_bytes _ (.inr rfl)]
    simp only [serve, NvmeRegs.pollAndDispatch, hw, hr, haddr, Bool.false_eq_true, if_false, if_true,
      NvmeRegs.handleMmioRead, hx]
    exact ⟨_, rfl⟩
  obtain ⟨hd, hout₁⟩ := hout r hr
  obtain ⟨hd', hout₂⟩ := hout r' hr'
  rw [hout₁, hout₂] at h
  simp only [List.cons.injEq, Out.response.injEq, and_true] at h
  exact encodeLe_inj h.2

/-- **The endpoint model forgets only what was the same anyway.** -/
theorem NvmeRegs.forgets_iff (undef : Undef) (h₁ h₂ : List (Message × List (Option Message))) :
    let step := serve Out.timeless (NvmeRegs.pollAndDispatch undef)
    Forgets (NvmeRegs.pollAndDispatch undef) {} h₁ h₂ ↔ (after step {} h₁).shown = (after step {} h₂).shown := by
  intro step
  constructor
  · intro h
    have hread : ∀ addr, (∀ r : NvmeRegs, (r.read addr).addrInvalid = false) →
        ((after step {} h₁).read addr).rdata = ((after step {} h₂).read addr).rdata :=
      fun addr hr => NvmeRegs.read_of_shown undef (h.next (fun _ _ => rfl) (barRead addr 8, [])) (hr _) (hr _)
    have hcc := hread kCcReg (fun _ => rfl)
    have hcsts := hread kCstsReg (fun _ => rfl)
    have haqa := hread kAqaReg (fun _ => rfl)
    have hasq := hread kAdminSqReg (fun _ => rfl)
    have hacq := hread kAdminCqReg (fun _ => rfl)
    simp only [NvmeRegs.shown, NvmeRegs.mk.injEq, and_true]
    exact ⟨UInt32.toUInt64_inj.1 hcc, UInt32.toUInt64_inj.1 hcsts, UInt32.toUInt64_inj.1 haqa, hasq, hacq⟩
  · intro h
    refine forgets_of_sim (R := fun r r' => r.shown = r'.shown) ?_ (fun r r' i hr => NvmeRegs.shown_step undef hr i)
    intro m₁ m₂ c₁ c₂ hm₁ hm₂
    have hkeep : ∀ (r : NvmeRegs) (m : Message) (c : Script), m.header.isType .resetReq = true →
        (r.pollAndDispatch undef m c).1 = r := by
      intro r m c hm
      simp only [NvmeRegs.pollAndDispatch, Header.isType_of_ne hm (show MessageType.resetReq ≠ .mmioWriteReq by decide),
        Header.isType_of_ne hm (show MessageType.resetReq ≠ .mmioReadReq by decide), hm, Bool.false_eq_true, if_false,
        if_true]
    rw [hkeep _ m₁ c₁ hm₁, hkeep _ m₂ c₂ hm₂]
    exact h

/-! ## mini_ics_alex_tb -/

section Slave

variable (fab : Fabric) (r : Slave) (v : BitVec 32)

theorem store_shown (d : Dw) (wdata : BitVec 32) (wstrb : BitVec 4) :
    ∃ v', { r with doorbellValue := v }.store d wdata wstrb = { r.store d wdata wstrb with doorbellValue := v' } := by
  cases d <;> exact ⟨_, rfl⟩

theorem memWrite_shown (t : Tlp) :
    ∃ v', { r with doorbellValue := v }.memWrite fab t =
      { r.memWrite fab t with slave := { (r.memWrite fab t).slave with doorbellValue := v' } } := by
  unfold Slave.memWrite Slave.axiWrite
  dsimp only
  split
  · rename_i d _
    split
    · obtain ⟨v', h⟩ := store_shown r v d (fab.write t).2.1 (fab.write t).2.2
      exact ⟨v', by rw [h]⟩
    · exact ⟨v, rfl⟩
  · exact ⟨v, rfl⟩

theorem memRead_shown (t : Tlp) : { r with doorbellValue := v }.memRead fab t = r.memRead fab t := by
  unfold Slave.memRead Slave.axiRead
  dsimp only
  split
  · rename_i d _
    cases d <;> rfl
  · rfl

theorem writeChunks_shown (address : UInt64) (payload : List UInt8) (length : Nat) :
    ∀ (n offset : Nat) (r : Slave) (v : BitVec 32),
      ∃ v', writeChunks fab address payload length n offset { r with doorbellValue := v } =
        ((writeChunks fab address payload length n offset r).1,
          { (writeChunks fab address payload length n offset r).2 with doorbellValue := v' })
  | 0, _, _, v          => ⟨v, rfl⟩
  | n + 1, offset, r, v => by
    obtain ⟨v', hw⟩ := memWrite_shown fab r v (makeTlp true (address.toBitVec + BitVec.ofNat 64 offset)
      (chunkLen length offset) (lo (decodeLe ((payload.drop offset).take (chunkLen length offset))).toBitVec))
    rw [writeChunks, writeChunks]
    by_cases ho : offset < length
    · rw [if_pos ho, if_pos ho]
      dsimp only
      rw [hw]
      dsimp only
      split
      · exact ⟨v', rfl⟩
      · exact writeChunks_shown address payload length n _ _ v'
    · rw [if_neg ho, if_neg ho]
      exact ⟨v, rfl⟩

theorem readChunks_shown (address : UInt64) (length : Nat) : ∀ (n offset : Nat),
    readChunks fab address { r with doorbellValue := v } length n offset = readChunks fab address r length n offset
  | 0, _          => rfl
  | n + 1, offset => by
    rw [readChunks, readChunks]
    simp only [memRead_shown, readChunks_shown address length n]

end Slave

namespace AlexTb

def shown (s : AlexTb) : AlexTb := { s with slave := { s.slave with doorbellValue := 0 } }

theorem eq_of_shown {s s' : AlexTb} (h : s.shown = s'.shown) :
    ∃ v, s' = { s with slave := { s.slave with doorbellValue := v } } := by
  cases s with
  | mk r asq acq =>
  cases s' with
  | mk r' asq' acq' =>
  cases r
  cases r'
  simp only [shown, AlexTb.mk.injEq, Slave.mk.injEq] at h
  obtain ⟨⟨rfl, rfl, rfl, rfl, rfl, rfl, rfl, rfl, rfl, rfl, rfl, -⟩, rfl, rfl⟩ := h
  exact ⟨_, rfl⟩

theorem shown_step (fab : Fabric) (undef : Undef) {s s' : AlexTb} (h : s.shown = s'.shown)
    (i : Message × List (Option Message)) :
    let step := serve Out.timeless (pollOne fab undef)
    (step s i).1.shown = (step s' i).1.shown ∧ (step s i).2 = (step s' i).2 := by
  obtain ⟨v, rfl⟩ := eq_of_shown h
  unfold serve pollOne
  dsimp only
  split_ifs with hread hwrite hreset
  · unfold handleMmioRead
    dsimp only
    rw [readChunks_shown fab s.slave v]
    split_ifs
    · split <;> exact ⟨rfl, rfl⟩
    · exact ⟨rfl, rfl⟩
  · obtain ⟨hs, hlog⟩ := handleMmioWrite_spec fab undef s i.1 ⟨i.2, []⟩
    obtain ⟨hs', hlog'⟩ := handleMmioWrite_spec fab undef { s with slave := { s.slave with doorbellValue := v } } i.1
      ⟨i.2, []⟩
    obtain ⟨v', hsent⟩ := writeChunks_shown fab i.1.header.address
      (payloadBytes undef i.1.payload i.1.header.transferLen) i.1.header.transferLen.toNat
      i.1.header.transferLen.toNat 0 s.slave v
    have hstatus : { s with slave := { s.slave with doorbellValue := v } }.writeStatus fab undef i.1 =
        s.writeStatus fab undef i.1 := by
      unfold writeStatus sent
      rw [hsent]
    rw [hs, hs', hlog, hlog', hstatus]
    refine ⟨?_, rfl⟩
    split
    · unfold sent
      dsimp only
      rw [hsent]
      rfl
    · rfl
  · exact ⟨rfl, rfl⟩
  · exact ⟨rfl, rfl⟩

theorem read_dw (fab : Fabric) (undef : Undef) (s : AlexTb) {d : Dw} (hd : d.isValidRead = true) :
    ∃ h, (serve Out.timeless (pollOne fab undef) s (barRead (UInt64.ofNat d.address) 4, [])).2 =
      [.response h ((List.range 4).map (fun k => UInt8.ofBitVec (byteAt (s.slave.word d) k)))] := by
  have hr : (barRead (UInt64.ofNat d.address) 4).header.isType .mmioReadReq = true := rfl
  have hlen : (barRead (UInt64.ofNat d.address) 4).header.transferLen.toNat = 4 := rfl
  have haddr : (barRead (UInt64.ofNat d.address) 4).header.address = UInt64.ofNat d.address := rfl
  have hreach : reached ((UInt64.ofNat d.address).toBitVec + BitVec.ofNat 64 0).toNat = some d := by cases d <;> rfl
  have hchunks : readChunks fab (UInt64.ofNat d.address) s.slave 4 4 0 =
      some ((List.range 4).map (fun k => UInt8.ofBitVec (byteAt (s.slave.word d) k))) := by
    rw [readChunks, if_pos (by decide)]
    dsimp only
    rw [memRead_makeTlp fab s.slave false _ _ _ hreach hd, if_neg (not_not_intro rfl), show chunkLen 4 0 = 4 from rfl,
      readChunks, if_neg (by decide)]
    simp
  simp only [serve, pollOne, hr, if_true, handleMmioRead, hlen, haddr, hchunks]
  exact ⟨_, rfl⟩

theorem ring (fab : Fabric) (undef : Undef) (s : AlexTb) :
    ∃ h, (serve Out.timeless (pollOne fab undef) s (barWrite 0x1000 [0, 0, 0, 0], [])).2 =
      [.response h [], readCommand s.asqAddr, writeCompletion s.acqAddr, interrupt] := by
  have hr : (barWrite 0x1000 [0, 0, 0, 0]).header.isType .mmioReadReq = false := rfl
  have hw : (barWrite 0x1000 [0, 0, 0, 0]).header.isType .mmioWriteReq = true := rfl
  have hrung := (rung_iff fab undef s hw).2 ⟨hw, rfl, .inr (.inr rfl)⟩
  obtain ⟨-, hlog⟩ := handleMmioWrite_spec fab undef s (barWrite 0x1000 [0, 0, 0, 0]) ⟨[], []⟩
  rw [if_pos hrung] at hlog
  simp only [serve, pollOne, hr, hw, Bool.false_eq_true, if_false, if_true, hlog]
  exact ⟨_, rfl⟩

theorem slave_shown {r r' : Slave} (h : ∀ d : Dw, d.isValidRead = true → r.word d = r'.word d) :
    { r with doorbellValue := 0 } = { r' with doorbellValue := 0 } := by
  have hqw : ∀ x y : BitVec 64, lo x = lo y → hi x = hi y → x = y := by
    intro x y hlo hhi
    rw [← join_hi_lo x, hlo, hhi, join_hi_lo]
  rw [Slave.mk.injEq]
  exact ⟨h .cc rfl, h .csts rfl, h .aqa rfl, hqw _ _ (h .asqLo rfl) (h .asqHi rfl),
    hqw _ _ (h .acqLo rfl) (h .acqHi rfl), hqw _ _ (h .descBaseLo rfl) (h .descBaseHi rfl),
    hqw _ _ (h .cplBaseLo rfl) (h .cplBaseHi rfl), h .descCount rfl, h .descTail rfl, h .dmaStatus rfl,
    h .dmaControl rfl, rfl⟩

/-- **Nor does `mini_ics_alex_tb` forget more.** -/
theorem forgets_iff (fab : Fabric) (undef : Undef) (h₁ h₂ : List (Message × List (Option Message))) :
    let step := serve Out.timeless (pollOne fab undef)
    Forgets (pollOne fab undef) {} h₁ h₂ ↔ (after step {} h₁).shown = (after step {} h₂).shown := by
  intro step
  have hkeep : ∀ (s : AlexTb) (m : Message) (c : Script), m.header.isType .resetReq = true →
      (s.pollOne fab undef m c).1 = s := by
    intro s m c hm
    simp only [pollOne, Header.isType_of_ne hm (show MessageType.resetReq ≠ .mmioWriteReq by decide),
      Header.isType_of_ne hm (show MessageType.resetReq ≠ .mmioReadReq by decide), hm, Bool.false_eq_true, if_false,
      if_true]
  constructor
  · intro h
    have hnext := h.next (fun s c => hkeep s resetRequest c rfl)
    have hword : ∀ d : Dw, d.isValidRead = true →
        (after step {} h₁).slave.word d = (after step {} h₂).slave.word d := by
      intro d hd
      have hread := hnext (barRead (UInt64.ofNat d.address) 4, [])
      obtain ⟨x, hx⟩ := read_dw fab undef (after step {} h₁) hd
      obtain ⟨y, hy⟩ := read_dw fab undef (after step {} h₂) hd
      rw [hx, hy] at hread
      simp only [List.cons.injEq, Out.response.injEq, and_true, List.map_inj_left, List.mem_range] at hread
      exact eq_of_byteAt (n := 4) rfl (fun k hk => congrArg UInt8.toBitVec (hread.2 k hk))
    have hring := hnext (barWrite 0x1000 [0, 0, 0, 0], [])
    obtain ⟨x, hx⟩ := ring fab undef (after step {} h₁)
    obtain ⟨y, hy⟩ := ring fab undef (after step {} h₂)
    rw [hx, hy] at hring
    simp only [readCommand, writeCompletion, List.cons.injEq, Out.request.injEq, and_true, true_and] at hring
    rw [shown, shown, slave_shown hword, hring.2.1, hring.2.2]
  · intro h
    refine forgets_of_sim (R := fun s s' => s.shown = s'.shown) ?_ (fun s s' i hs => shown_step fab undef hs i)
    intro m₁ m₂ c₁ c₂ hm₁ hm₂
    rw [hkeep _ m₁ c₁ hm₁, hkeep _ m₂ c₂ hm₂]
    exact h

end AlexTb

/-! ## The Verilator main loop -/

variable {δ : Type}

/-- The same answers to come, and the same outputs but for timestamps and transaction IDs. -/
structure Script.Like (c c' : Script) : Prop where
  answers : c.answers = c'.answers
  log     : c.log.map Out.timeless = c'.log.map Out.timeless

theorem Script.Like.request {c c' : Script} (h : c.Like c') (t : MessageType) (a : UInt64) (p : List UInt8) (n : UInt32)
    (e : Bool) : (c.sendRequestToHost t a p n e).1 = (c'.sendRequestToHost t a p n e).1 ∧
      (c.sendRequestToHost t a p n e).2.Like (c'.sendRequestToHost t a p n e).2 := by
  have hlog : (c.log ++ [Out.request t a p n]).map Out.timeless =
      (c'.log ++ [Out.request t a p n]).map Out.timeless := by
    rw [List.map_append, List.map_append, h.log]
  cases e with
  | false => exact ⟨rfl, h.answers, hlog⟩
  | true  => exact ⟨congrArg (List.headD · none) h.answers, congrArg List.tail h.answers, hlog⟩

theorem Script.Like.response {c c' : Script} (h : c.Like c') (t : MessageType) (x a : UInt64) (st : StatusCode)
    (n n' : UInt64) (l : UInt32) (f : UInt16) (p : List UInt8) (m : UInt32) :
    (c.sendResponse (makeHeader t x a 0 st n l f m) p).Like (c'.sendResponse (makeHeader t x a 0 st n' l f m) p) := by
  refine ⟨h.answers, ?_⟩
  simp only [Script.sendResponse, List.map_append, h.log]
  rfl

/-- The DMA engine does not look at the clock or at what has been sent: engines that are the same to `same` do the same
transfers. -/
structure Engine.Blind (eng : Engine δ) (same : δ → δ → Prop) : Prop where
  dmaRead  : ∀ a r n t e e' c c', same e e' → Script.Like c c' →
    (eng.dmaRead a r n t (e, c)).1 = (eng.dmaRead a r n t (e', c')).1 ∧
      same (eng.dmaRead a r n t (e, c)).2.1 (eng.dmaRead a r n t (e', c')).2.1 ∧
      (eng.dmaRead a r n t (e, c)).2.2.Like (eng.dmaRead a r n t (e', c')).2.2
  dmaWrite : ∀ a r n t e e' c c', same e e' → Script.Like c c' →
    (eng.dmaWrite a r n t (e, c)).1 = (eng.dmaWrite a r n t (e', c')).1 ∧
      same (eng.dmaWrite a r n t (e, c)).2.1 (eng.dmaWrite a r n t (e', c')).2.1 ∧
      (eng.dmaWrite a r n t (e, c)).2.2.Like (eng.dmaWrite a r n t (e', c')).2.2
  reset    : ∀ e e', same e e' → same (eng.reset e) (eng.reset e')

structure SimLike (same : δ → δ → Prop) (s s' : Sim (δ × Script)) : Prop where
  harness : s.harness = s'.harness
  engine  : same s.host.1 s'.host.1
  script  : s.host.2.Like s'.host.2

theorem access_twins (fab : Fabric) (eng : Engine δ) {same : δ → δ → Prop} (v : Shadow) (write : Bool)
    (address : UInt64) (length : UInt32) (data : UInt64) {s s' : Sim (δ × Script)} (h : SimLike same s s') :
    let a := access (Alex.env fab eng.host) v write address length data s
    let a' := access (Alex.env fab eng.host) v write address length data s'
    a.1 = a'.1 ∧ SimLike same a.2 a'.2 := by
  unfold access
  split
  · exact ⟨rfl, h⟩
  · dsimp only [Alex.env]
    rw [h.harness]
    exact ⟨rfl, rfl, h.engine, h.script⟩

theorem response_twins (fab : Fabric) (eng : Engine δ) {same : δ → δ → Prop} {s s' : Sim (δ × Script)}
    (h : SimLike same s s') (t : MessageType) (x a : UInt64) (st : StatusCode) (n n' : UInt64) (l : UInt32) (f : UInt16)
    (p : List UInt8) (m : UInt32) :
    SimLike same ((Alex.env fab eng.host).sendResponse (makeHeader t x a 0 st n l f m) p s)
      ((Alex.env fab eng.host).sendResponse (makeHeader t x a 0 st n' l f m) p s') :=
  ⟨h.harness, h.engine, h.script.response t x a st n n' l f p m⟩

section Twins

variable (fab : Fabric) {eng : Engine δ} {same : δ → δ → Prop} (hb : eng.Blind same)
include hb

theorem twins : (Alex.env fab eng.host).Twins (SimLike same) where
  request t a p n e s s' h := by
    obtain ⟨hans, hlike⟩ := h.script.request t a p n e
    exact ⟨hans, h.harness, h.engine, hlike⟩
  dmaRead a r n t s s' h := by
    obtain ⟨hok, hsame, hlike⟩ := hb.dmaRead a r n t _ _ _ _ h.engine h.script
    exact ⟨hok, h.harness, hsame, hlike⟩
  dmaWrite a r n t s s' h := by
    obtain ⟨hok, hsame, hlike⟩ := hb.dmaWrite a r n t _ _ _ _ h.engine h.script
    exact ⟨hok, h.harness, hsame, hlike⟩

theorem tailDoorbell_twins (v : Shadow) (address data : UInt64) {s s' : Sim (δ × Script)} (h : SimLike same s s') :
    let d := v.tailDoorbell (Alex.env fab eng.host) address data s
    let d' := v.tailDoorbell (Alex.env fab eng.host) address data s'
    d.1 = d'.1 ∧ SimLike same d.2.2 d'.2.2 := by
  unfold Shadow.tailDoorbell
  split
  · obtain ⟨hok, hhead, hlike⟩ := (twins fab hb).runGenericDma v.descBase v.cplBase v.descCount data.toUInt32
      v.descHead h
    dsimp only at hok hhead ⊢
    rw [hok, hhead]
    exact ⟨rfl, hlike⟩
  · exact ⟨rfl, h⟩

theorem sq0Doorbell_twins (v : Shadow) (address : UInt64) {s s' : Sim (δ × Script)} (h : SimLike same s s') :
    SimLike same (sq0Doorbell (Alex.env fab eng.host) v address s)
      (sq0Doorbell (Alex.env fab eng.host) v address s') := by
  have hseen : (Alex.env fab eng.host).doorbellSeen s = (Alex.env fab eng.host).doorbellSeen s' :=
    congrArg Harness.doorbellSeen h.harness
  have hclear : SimLike same ((Alex.env fab eng.host).clearDoorbell s) ((Alex.env fab eng.host).clearDoorbell s') :=
    ⟨congrArg (fun x : Harness => { x with doorbellSeen := false }) h.harness, h.engine, h.script⟩
  unfold sq0Doorbell
  rw [hseen]
  split
  · obtain ⟨hread, hlike⟩ := (twins fab hb).request .dmaReadReq v.asq [] 64 true _ _ hclear
    dsimp only
    rw [hread]
    split
    · exact hlike
    · obtain ⟨-, hlike⟩ := (twins fab hb).request .dmaWriteReq v.acq mockCompletion 16 true _ _ hlike
      exact ((twins fab hb).request .msiX 0 [] 0 false _ _ hlike).2
  · exact h

theorem doorbells_twins (v : Shadow) (address data : UInt64) {s s' : Sim (δ × Script)} (h : SimLike same s s') :
    let d := v.tailDoorbell (Alex.env fab eng.host) address data s
    let d' := v.tailDoorbell (Alex.env fab eng.host) address data s'
    d.1 = d'.1 ∧ SimLike same (sq0Doorbell (Alex.env fab eng.host) d.1 address d.2.2)
      (sq0Doorbell (Alex.env fab eng.host) d'.1 address d'.2.2) := by
  intro d d'
  obtain ⟨hshadow, hlike⟩ := tailDoorbell_twins fab hb v address data h
  have hd : d.1 = d'.1 := hshadow
  refine ⟨hd, ?_⟩
  rw [hd]
  exact sq0Doorbell_twins fab hb d'.1 address hlike

/-- **One message, in two runs that are alike.** -/
theorem handle_twins (v : Shadow) (msg : Message) {s s' : Sim (δ × Script)} (h : SimLike same s s') :
    let r := Verilator.handle (Alex.env fab eng.host) v msg s
    let r' := Verilator.handle (Alex.env fab eng.host) v msg s'
    r.shadow = r'.shadow ∧ SimLike same r.env r'.env := by
  unfold Verilator.handle
  dsimp only
  by_cases hreset : msg.header.isType .resetReq = true
  · rw [if_pos hreset, if_pos hreset]
    exact ⟨rfl, congrArg Harness.reset h.harness, hb.reset _ _ h.engine, h.script.response _ _ _ _ _ _ _ _ _ _⟩
  · rw [if_neg hreset, if_neg hreset]
    by_cases hwrite : msg.header.isType .mmioWriteReq = true
    · rw [if_pos hwrite, if_pos hwrite]
      obtain ⟨hres, hlike⟩ := access_twins fab eng v true msg.header.address _ (decodeLe msg.payload) h
      unfold handleWrite
      dsimp only
      rw [hres]
      exact doorbells_twins fab hb _ _ _ (response_twins fab eng hlike _ _ _ _ _ _ _ _ _ _)
    · rw [if_neg hwrite, if_neg hwrite]
      split
      · obtain ⟨hres, hlike⟩ := access_twins fab eng v false msg.header.address _ (decodeLe msg.payload) h
        unfold handleRead
        dsimp only
        rw [hres]
        exact ⟨rfl, response_twins fab eng hlike _ _ _ _ _ _ _ _ _ _⟩
      · exact ⟨rfl, h⟩

end Twins

structure MainLoop.Alike (same : δ → δ → Prop) (s t : MainLoop δ) : Prop where
  shadow  : s.shadow = t.shadow
  harness : s.harness = t.harness
  engine  : same s.engine t.engine

/-- What a reset does not restore is the same: the variables of `main`, the doorbell latch, and what is left of the DMA
engine after `rst`. -/
structure MainLoop.SameRest (eng : Engine δ) (same : δ → δ → Prop) (s t : MainLoop δ) : Prop where
  shadow : s.shadow = t.shadow
  latch  : s.harness.doorbellSeen = t.harness.doorbellSeen
  engine : same (eng.reset s.engine) (eng.reset t.engine)

theorem MainLoop.Alike.handle (fab : Fabric) {eng : Engine δ} {same : δ → δ → Prop} (hb : eng.Blind same)
    {s t : MainLoop δ} (h : s.Alike same t) (i : Message × List (Option Message)) :
    let step := serve Out.timeless (MainLoop.handle fab eng)
    (step s i).1.Alike same (step t i).1 ∧ (step s i).2 = (step t i).2 := by
  have hstart : SimLike same ⟨s.harness, (s.engine, ⟨i.2, []⟩)⟩ ⟨t.harness, (t.engine, ⟨i.2, []⟩)⟩ :=
    ⟨h.harness, h.engine, rfl, rfl⟩
  obtain ⟨hshadow, hlike⟩ := handle_twins fab hb t.shadow i.1 hstart
  unfold serve MainLoop.handle
  dsimp only
  rw [h.shadow]
  exact ⟨⟨hshadow, hlike.harness, hlike.engine⟩, hlike.script.log⟩

/-- **The main loop forgets what the RTL held.** -/
theorem MainLoop.forgets (fab : Fabric) {eng : Engine δ} {same : δ → δ → Prop} (hb : eng.Blind same) (s : MainLoop δ)
    (h₁ h₂ : List (Message × List (Option Message)))
    (h : MainLoop.SameRest eng same (after (serve Out.timeless (MainLoop.handle fab eng)) s h₁)
      (after (serve Out.timeless (MainLoop.handle fab eng)) s h₂)) : Forgets (MainLoop.handle fab eng) s h₁ h₂ := by
  refine forgets_of_sim (R := MainLoop.Alike same) ?_ (fun s t i hs => hs.handle fab hb i)
  intro m₁ m₂ c₁ c₂ hm₁ hm₂
  have hreset : ∀ (x : MainLoop δ) (m : Message) (c : Script), m.header.isType .resetReq = true →
      (x.handle fab eng m c).1 = ⟨x.shadow, x.harness.reset, eng.reset x.engine⟩ := by
    intro x m c hm
    simp only [MainLoop.handle, Verilator.handle, hm, if_true]
    rfl
  rw [hreset _ m₁ c₁ hm₁, hreset _ m₂ c₂ hm₂]
  refine ⟨h.shadow, ?_, h.engine⟩
  rw [Harness.reset, Harness.reset, h.latch]

/-! ## Every backend -/

/-- **What a reset erases.**  For two histories that a reset ends and the same requests and answers after it, the
software model gives the same outputs; the endpoint model and `mini_ics_alex_tb` do exactly when the registers that
show were the same before the reset; the Verilator main loop does when its variables, the doorbell latch and the reset
DMA engine were. -/
theorem reset_erases_history (fab : Fabric) (undef : Undef) {eng : Engine δ} {same : δ → δ → Prop} (hb : eng.Blind same)
    (e : δ) (h₁ h₂ : List (Message × List (Option Message))) :
    Forgets Software.handle {} h₁ h₂ ∧
    (Forgets (NvmeRegs.pollAndDispatch undef) {} h₁ h₂ ↔
      (after (serve Out.timeless (NvmeRegs.pollAndDispatch undef)) {} h₁).shown =
        (after (serve Out.timeless (NvmeRegs.pollAndDispatch undef)) {} h₂).shown) ∧
    (Forgets (AlexTb.pollOne fab undef) {} h₁ h₂ ↔
      (after (serve Out.timeless (AlexTb.pollOne fab undef)) {} h₁).shown =
        (after (serve Out.timeless (AlexTb.pollOne fab undef)) {} h₂).shown) ∧
    (MainLoop.SameRest eng same (after (serve Out.timeless (MainLoop.handle fab eng)) ⟨{}, {}, e⟩ h₁)
        (after (serve Out.timeless (MainLoop.handle fab eng)) ⟨{}, {}, e⟩ h₂) →
      Forgets (MainLoop.handle fab eng) ⟨{}, {}, e⟩ h₁ h₂) :=
  ⟨Software.forgets h₁ h₂, NvmeRegs.forgets_iff undef h₁ h₂, AlexTb.forgets_iff fab undef h₁ h₂,
    MainLoop.forgets fab hb ⟨{}, {}, e⟩ h₁ h₂⟩

/-- The main loop, with and without a write to AQA before the reset. -/
theorem reset_erases_history_aqa :
    Forgets (MainLoop.handle Fabric.plain Engine.idle) ⟨{}, {}, ()⟩ [] [(barWrite 0x24 [1, 0, 0, 0], [])] := by
  have hblind : Engine.idle.Blind (fun _ _ => True) :=
    ⟨fun _ _ _ _ _ _ _ _ _ h => ⟨rfl, trivial, h⟩, fun _ _ _ _ _ _ _ _ _ h => ⟨rfl, trivial, h⟩, fun _ _ _ => trivial⟩
  exact (reset_erases_history Fabric.plain (fun _ _ => 0) hblind () [] _).2.2.2 ⟨by decide, by decide, trivial⟩

/-- CC outlives a reset of the endpoint model and of `mini_ics_alex_tb`, the copy of ASQ one of the main loop. -/
theorem reset_keeps_history :
    ∃ h₁ h₂, ¬ Forgets (NvmeRegs.pollAndDispatch (fun _ _ => 0)) {} h₁ h₂ ∧
      ¬ Forgets (AlexTb.pollOne Fabric.plain (fun _ _ => 0)) {} h₁ h₂ ∧
      ¬ Forgets (MainLoop.handle Fabric.plain Engine.idle) ⟨{}, {}, ()⟩ h₁ h₂ := by
  refine ⟨[], [(barWrite 0x14 [1, 0, 0, 0], []), (barWrite 0x28 [0, 0, 1, 0, 0, 0, 0, 0], [])], ?_, ?_, ?_⟩
  · intro h
    exact absurd (h resetRequest resetRequest [] [] rfl rfl [(barRead 0x14 4, [])]) (by decide)
  · intro h
    exact absurd (h resetRequest resetRequest [] [] rfl rfl [(barRead 0x14 4, [])]) (by decide)
  · intro h
    exact absurd (h resetRequest resetRequest [] [] rfl rfl [(barWrite 0x1000 [1, 0, 0, 0], [])]) (by decide)

end Endpoint
end Vip
