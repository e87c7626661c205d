import PcieVip.RegisterStore
/-!
# MmioWindow — accesses outside the software model's window

`AddrValid` adds a 32-bit length to a 64-bit address; the sum wraps, and an access at the very end of the address space
passes.  The handlers then find no register there.  A read, and a write of four or eight bytes, end in the last branch
and are refused as they should be; a write of any other size is refused for its length (`out_of_window_iff`).
-/
namespace Vip
namespace Endpoint

open Alex Bytes Ics Verilator

/-! ## The range test -/

/-- The bytes do not all lie below 64 KiB. -/
def OutOfWindow (addr : UInt64) (n : Nat) : Prop := 65536 < addr.toNat + n

/-- They lie across the end of the address space, and end in the window. -/
def Wraps (addr : UInt64) (n : Nat) : Prop := 2 ^ 64 ≤ addr.toNat + n ∧ addr.toNat + n ≤ 2 ^ 64 + 65536

instance (addr : UInt64) (n : Nat) : Decidable (Wraps addr n) := inferInstanceAs (Decidable (_ ∧ _))

theorem addrValid_iff (addr : UInt64) (len : UInt32) :
    addrValid addr len = true ↔ (addr.toNat + len.toNat) % 2 ^ 64 ≤ 65536 := by
  rw [addrValid, decide_eq_true_eq, UInt64.le_iff_toNat_le, UInt64.toNat_add, UInt32.toNat_toUInt64]
  rfl

theorem addrValid_outside {addr : UInt64} {len : UInt32} (h : OutOfWindow addr len.toNat) :
    addrValid addr len = true ↔ Wraps addr len.toNat := by
  have haddr := addr.toNat_lt
  have hlen := len.toNat_lt
  rw [addrValid_iff]
  unfold OutOfWindow at h
  unfold Wraps
  constructor
  · intro hle
    omega
  · rintro ⟨hwrap, hend⟩
    omega

theorem Wraps.high {addr : UInt64} {len : UInt32} (h : Wraps addr len.toNat) {reg : UInt64} (hreg : reg.toNat ≤ 65536) :
    addr ≠ reg := by
  rintro rfl
  have hlen := len.toNat_lt
  have hwrap := h.1
  omega

/-! ## How an access is refused -/

structure RefusedOutside (s : Software) (msg : Message) (answers : List (Option Message)) : Prop where
  status : ∃ h p rest, (s.handle msg ⟨answers, []⟩).2.log = .response h p :: rest ∧
    h.isStatus .errorInvalidAddress = true
  kept   : (s.handle msg ⟨answers, []⟩).1.SameRegisters s

section Accesses

variable (s : Software) {msg : Message} (answers : List (Option Message))

theorem read_refused_outside (hr : msg.header.isType .mmioReadReq = true)
    (hlen : readLength msg = 1 ∨ readLength msg = 2 ∨ readLength msg = 4 ∨ readLength msg = 8)
    (hout : OutOfWindow msg.header.address (readLength msg).toNat) : RefusedOutside s msg answers := by
  obtain ⟨⟨t, hstate⟩, t', hlog⟩ := s.step_read answers hr
  have hload : (s.load msg).1 = .errorInvalidAddress := by
    rw [s.load_eq_of_length hlen, if_neg]
    rintro ⟨hvalid, hreg⟩
    have hwrap := (addrValid_outside hout).1 hvalid
    have hnone : s.register? msg.header.address = none := by
      rw [Software.register?, if_neg (hwrap.high (by decide)), if_neg (hwrap.high (by decide)),
        if_neg (hwrap.high (by decide)), if_neg (hwrap.high (by decide))]
    rw [hnone] at hreg
    cases hreg
  refine ⟨⟨_, _, _, hlog, ?_⟩, ?_⟩
  · rw [isStatus_makeHeader, hload]
    rfl
  · exact hstate ▸ ⟨rfl, rfl, rfl, rfl, rfl⟩

theorem Software.store_outside {addr : UInt64} {payload : List UInt8} (hlen : payload.length < 2 ^ 32)
    (hout : OutOfWindow addr payload.length) :
    s.store addr payload =
      (if Wraps addr payload.length ∧ payload.length ≠ 4 ∧ payload.length ≠ 8 then .errorBadLength
        else .errorInvalidAddress, s) := by
  have hnat : (UInt32.ofNat payload.length).toNat = payload.length := UInt32.toNat_ofNat_of_lt' hlen
  have h4 : UInt32.ofNat payload.length = 4 ↔ payload.length = 4 := by
    rw [← UInt32.toNat_inj, hnat]
    rfl
  have h8 : UInt32.ofNat payload.length = 8 ↔ payload.length = 8 := by
    rw [← UInt32.toNat_inj, hnat]
    rfl
  have hvalid : addrValid addr (UInt32.ofNat payload.length) = true ↔
      Wraps addr (UInt32.ofNat payload.length).toNat := addrValid_outside (by rwa [hnat])
  rw [hnat] at hvalid
  unfold Software.store
  dsimp only
  by_cases hwrap : Wraps addr payload.length
  · have hhigh : Wraps addr (UInt32.ofNat payload.length).toNat := by rwa [hnat]
    have hno : ∀ reg : UInt64, reg.toNat ≤ 65536 → ∀ n : UInt32, ¬ (addr = reg ∧ UInt32.ofNat payload.length = n) :=
      fun reg hreg n hc => hhigh.high hreg hc.1
    rw [hvalid.2 hwrap, if_neg (by decide), if_neg (hno _ (by decide) _), if_neg (hno _ (by decide) _),
      if_neg (hno _ (by decide) _), if_neg (hno _ (by decide) _), if_neg (hno _ (by decide) _)]
    simp only [ne_eq, h4, h8, hwrap, true_and]
    split <;> rfl
  · have hfalse : addrValid addr (UInt32.ofNat payload.length) = false :=
      Bool.eq_false_iff.2 (fun hc => hwrap (hvalid.1 hc))
    rw [hfalse, if_pos (by decide), if_neg (fun hc => hwrap hc.1)]

/-- **A write outside is refused as such unless it wraps and is not of four or eight bytes.** -/
theorem write_refused_outside_iff (hw : msg.header.isType .mmioWriteReq = true) (hlen : msg.payload.length < 2 ^ 32)
    (hout : OutOfWindow msg.header.address msg.payload.length) :
    RefusedOutside s msg answers ↔
      ¬ (Wraps msg.header.address msg.payload.length ∧ msg.payload.length ≠ 4 ∧ msg.payload.length ≠ 8) := by
  have hreset : msg.header.isType .resetReq = false := Header.isType_of_ne hw (by decide)
  obtain ⟨⟨t, hstate⟩, hlog⟩ := (s.tick 15).handleMmioWrite_spec msg ⟨answers, []⟩
  rw [(s.tick 15).store_outside hlen hout] at hstate hlog
  have hhandle : s.handle msg ⟨answers, []⟩ = (s.tick 15).handleMmioWrite msg ⟨answers, []⟩ := by
    simp only [Software.handle, hreset, hw, Bool.false_eq_true, if_false, if_true]
  rw [← hhandle] at hstate hlog
  constructor
  · rintro ⟨⟨h, p, rest, heq, hst⟩, -⟩ hbad
    rw [hlog, List.nil_append, if_pos hbad] at heq
    cases heq
    cases hst
  · intro hgood
    refine ⟨⟨_, _, _, hlog, ?_⟩, ?_⟩
    · rw [isStatus_makeHeader, if_neg hgood]
      rfl
    · exact hstate ▸ ⟨rfl, rfl, rfl, rfl, rfl⟩

end Accesses

/-- **Which accesses outside the window are refused as such.**  Every read of one of the four lengths, and every write
but those that wrap into the window with another size than four or eight. -/
theorem out_of_window_iff (s : Software) {msg : Message} (hpay : msg.payload.length = msg.header.payloadLen.toNat)
    (answers : List (Option Message)) :
    ((msg.header.isType .mmioWriteReq = true → OutOfWindow msg.header.address msg.payload.length →
          RefusedOutside s msg answers) ∧
        (msg.header.isType .mmioReadReq = true →
          readLength msg = 1 ∨ readLength msg = 2 ∨ readLength msg = 4 ∨ readLength msg = 8 →
          OutOfWindow msg.header.address (readLength msg).toNat → RefusedOutside s msg answers)) ↔
      ¬ (msg.header.isType .mmioWriteReq = true ∧ Wraps msg.header.address msg.payload.length ∧
        msg.payload.length ≠ 4 ∧ msg.payload.length ≠ 8) := by
  have hlen : msg.payload.length < 2 ^ 32 := by
    rw [hpay]
    exact msg.header.payloadLen.toNat_lt
  constructor
  · rintro ⟨h, -⟩ ⟨hw, hwrap, hsize⟩
    have hout : OutOfWindow msg.header.address msg.payload.length := Nat.lt_of_lt_of_le (by decide) hwrap.1
    exact (write_refused_outside_iff s answers hw hlen hout).1 (h hw hout) ⟨hwrap, hsize⟩
  · intro h
    refine ⟨fun hw hout => ?_, fun hr hl hout => read_refused_outside s answers hr hl hout⟩
    exact (write_refused_outside_iff s answers hw hlen hout).2 (fun hc => h ⟨hw, hc⟩)

theorem out_of_window_iff_above :
    RefusedOutside {} (barWrite 0x10000 [1, 0, 0, 0]) [] := by
  let msg := barWrite 0x10000 [1, 0, 0, 0]
  have hpay : msg.payload.length = msg.header.payloadLen.toNat := rfl
  exact ((out_of_window_iff {} hpay []).2 (by decide)).1 rfl (show 65536 < 65536 + 4 by decide)

/-- Three bytes up to the end of the address space: the sum is zero, and the write is refused for its length. -/
theorem out_of_window_bad_length :
    let msg := barWrite 0xfffffffffffffffd [1, 2, 3]
    OutOfWindow msg.header.address msg.payload.length ∧
      (Software.handle {} msg ⟨[], []⟩).2.log =
        [.response (makeHeader .mmioWriteRsp 2 0xfffffffffffffffd 0 .errorBadLength 115 0 kFlagIsResponse) []] ∧
      ¬ RefusedOutside {} msg [] := by
  intro msg
  have hout : OutOfWindow msg.header.address msg.payload.length := show 65536 < 0xfffffffffffffffd + 3 by decide
  have hbad : (Software.handle {} msg ⟨[], []⟩).2.log =
      [.response (makeHeader .mmioWriteRsp 2 0xfffffffffffffffd 0 .errorBadLength 115 0 kFlagIsResponse) []] := by
    decide
  refine ⟨hout, hbad, fun h => ?_⟩
  obtain ⟨h', p, rest, hlog, hst⟩ := h.status
  rw [hbad] at hlog
  cases hlog
  cases hst

end Endpoint
end Vip
