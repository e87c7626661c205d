import PcieVip.LengthChecks
import PcieVip.PayloadBound
/-!
# MmioLength — the length of an MMIO access in the Verilator main loop

The main loop takes the length of an access from a 32-bit field and checks nothing.  The state machine of the RTL
checks what is left of it on a port of four bits; the read of the DMA status at 0x1058 does not reach the RTL at all,
and the copies that the main loop keeps of its registers are assigned before the answer of the RTL is looked at.  The
answer to a read is then encoded with the full length.  `mmio_length_iff` says which requests are treated as their
length demands.
-/
namespace Vip
namespace Endpoint

open Alex Bytes Ics Verilator Word

variable {δ : Type}

/-! ## A length that is respected -/

/-- The distances by which `EncodeLe` shifts for the answer to a request; only a successful read calls it. -/
def MainLoop.shifts (fab : Fabric) (eng : Engine δ) (s : MainLoop δ) (msg : Message) (c : Script) : List Nat :=
  let a := access (Alex.env fab eng.host) s.shadow false msg.header.address (MainLoop.length msg) (decodeLe msg.payload)
    ⟨s.harness, (s.engine, c)⟩
  if msg.header.isType .mmioReadReq = true ∧ a.1.2 = 0 then (List.range (MainLoop.length msg).toNat).map (8 * ·) else []

def IsReply (log : List Out) (h : Header) (payload : List UInt8) : Prop := log.head? = some (.response h payload)

/-- A request whose length is no length of a register access is answered with an error and changes no register, neither
in the RTL nor in the main loop; a successful read of one that is carries as many bytes. -/
structure LengthRespected (fab : Fabric) (eng : Engine δ) (s : MainLoop δ) (msg : Message)
    (answers : List (Option Message)) : Prop where
  refused : (MainLoop.length msg).toNat ∉ lengths →
    (∃ h p, IsReply (s.handle fab eng msg ⟨answers, []⟩).2.log h p ∧ h.isStatus .success = false) ∧
      (s.handle fab eng msg ⟨answers, []⟩).1.shadow = s.shadow ∧
      (s.handle fab eng msg ⟨answers, []⟩).1.harness.slave = s.harness.slave
  exact   : (MainLoop.length msg).toNat ∈ lengths → msg.header.isType .mmioReadReq = true → ∀ h p,
    IsReply (s.handle fab eng msg ⟨answers, []⟩).2.log h p → h.isStatus .success = true →
      p.length = (MainLoop.length msg).toNat
  shifts  : ∀ k ∈ s.shifts fab eng msg ⟨answers, []⟩, k < 64

/-! ## Reads -/

section Read

variable (fab : Fabric) (eng : Engine δ) (s : MainLoop δ) {msg : Message}
  (hr : msg.header.isType .mmioReadReq = true) (answers : List (Option Message))
include hr

theorem shifts_eq :
    s.shifts fab eng msg ⟨answers, []⟩ =
      if (access (Alex.env fab eng.host) s.shadow false msg.header.address (MainLoop.length msg) (decodeLe msg.payload)
          ⟨s.harness, (s.engine, ⟨answers, []⟩)⟩).1.2 = 0 then
        (List.range (MainLoop.length msg).toNat).map (8 * ·)
      else [] := by
  simp only [MainLoop.shifts, hr, true_and]

theorem read_respected (hlen : (MainLoop.length msg).toNat ∈ lengths) : LengthRespected fab eng s msg answers := by
  obtain ⟨-, -, hlog, -⟩ := s.handleRead_spec fab eng hr ⟨answers, []⟩
  refine ⟨fun hbad => absurd hlen hbad, fun _ _ h p hreply hok => ?_, fun k hk => ?_⟩
  · rw [IsReply, hlog, List.nil_append, List.head?_cons] at hreply
    cases hreply
    rw [isStatus_makeHeader, decide_eq_true_eq] at hok
    split at hok
    · rename_i hzero
      rw [if_pos hzero, length_encodeLe]
    · cases hok
  · rw [shifts_eq fab eng s hr] at hk
    split at hk
    · obtain ⟨i, hi, rfl⟩ := List.mem_map.1 hk
      have hn := mem_lengths.1 hlen
      rw [List.mem_range] at hi
      omega
    · cases hk

theorem read_respected_iff (hlen : (MainLoop.length msg).toNat ∉ lengths) :
    LengthRespected fab eng s msg answers ↔ ¬ ReadAnswered fab msg := by
  obtain ⟨hshadow, hharness, hlog, hstatus⟩ := s.handleRead_spec fab eng hr ⟨answers, []⟩
  rw [← hstatus]
  constructor
  · rintro h hok
    obtain ⟨h', p, hreply, hbad⟩ := (h.refused hlen).1
    rw [IsReply, hlog, List.nil_append, List.head?_cons, if_pos hok] at hreply
    cases hreply
    cases hbad
  · intro hbad
    refine ⟨fun _ => ⟨?_, hshadow, by rw [hharness]⟩, fun h => absurd h hlen, fun k hk => ?_⟩
    · rw [hlog]
      refine ⟨_, _, rfl, ?_⟩
      rw [isStatus_makeHeader_false, if_neg hbad]
      exact nofun
    · rw [shifts_eq fab eng s hr, if_neg hbad] at hk
      cases hk

end Read

/-! ## Writes -/

section Write

variable (fab : Fabric) (eng : Engine δ) {msg : Message} (hw : msg.header.isType .mmioWriteReq = true)
include hw

theorem shifts_nil (s : MainLoop δ) (c : Script) : s.shifts fab eng msg c = [] :=
  if_neg (fun h => (by rw [Header.isType_of_ne hw (by decide)] at h; cases h.1))

theorem write_respected (hlen : (MainLoop.length msg).toNat ∈ lengths) (s : MainLoop δ)
    (answers : List (Option Message)) : LengthRespected fab eng s msg answers := by
  refine ⟨fun hbad => absurd hlen hbad, fun _ hr => ?_, fun k hk => ?_⟩
  · rw [Header.isType_of_ne hw (by decide)] at hr
    cases hr
  · rw [shifts_nil fab eng hw] at hk
    cases hk

theorem write_refused_iff (htail : msg.header.address ≠ 0x1054) (s : MainLoop δ) (answers : List (Option Message)) :
    (∃ h p, IsReply (s.handle fab eng msg ⟨answers, []⟩).2.log h p ∧ h.isStatus .success = false) ↔
      (s.harness.mmio fab true msg.header.address (MainLoop.length msg) (decodeLe msg.payload)).1.elim 5 Prod.snd ≠
        0 := by
  obtain ⟨-, -, hlog⟩ := s.handleWrite_spec fab eng hw htail ⟨answers, []⟩
  rw [hlog, List.nil_append]
  constructor
  · rintro ⟨h, p, hreply, hbad⟩ hok
    rw [IsReply, List.head?_cons, if_pos hok] at hreply
    cases hreply
    cases hbad
  · intro hbad
    refine ⟨_, _, rfl, ?_⟩
    rw [isStatus_makeHeader_false, if_neg hbad]
    exact nofun

/-- **A write with another length is refused in every state unless the main loop has a copy of the register, or the
access of the RTL writes one.** -/
theorem write_respected_iff [Inhabited δ] (hlen : (MainLoop.length msg).toNat ∉ lengths) :
    (∀ (s : MainLoop δ) (answers : List (Option Message)), LengthRespected fab eng s msg answers) ↔
      ¬ (Watched msg.header.address ∧ msg.header.address ≠ 0x1000) ∧
        ¬ RtlTakes fab msg.header.address (MainLoop.length msg) := by
  constructor
  · intro h
    have htail := not_tail_of_kept hw ((h ⟨longRing, {}, default⟩ []).refused hlen).2.1
    constructor
    · rintro ⟨hwatched, hbell⟩
      exact not_watched_of_kept hw htail hbell (fun v => ((h ⟨v, {}, default⟩ []).refused hlen).2.1) hwatched
    · intro htakes
      obtain ⟨r, hr⟩ := mmio_taken fab (decodeLe msg.payload) htakes
      obtain ⟨-, hslave, -⟩ := MainLoop.handleWrite_spec fab eng ⟨{}, r, default⟩ hw htail ⟨[], []⟩
      obtain ⟨hreply, -, hkeep⟩ := (h ⟨{}, r, default⟩ []).refused hlen
      rcases hr with hok | hne
      · exact (write_refused_iff fab eng hw htail _ _).1 hreply hok
      · exact hne (hslave.symm.trans hkeep)
  · rintro ⟨hwatched, htakes⟩ s answers
    have htail : msg.header.address ≠ 0x1054 := by
      intro ht
      rw [ht] at hwatched
      exact hwatched (by decide)
    have hassign : s.shadow.assign msg.header.address (decodeLe msg.payload) = s.shadow := by
      by_cases hbell : msg.header.address = 0x1000
      · rw [hbell]
        rfl
      · exact assign_unwatched _ _ (fun hc => hwatched ⟨hc, hbell⟩)
    obtain ⟨hshadow, hslave, -⟩ := s.handleWrite_spec fab eng hw htail ⟨answers, []⟩
    have hmmio := mmio_not_taken fab s.harness (decodeLe msg.payload) htakes
    refine ⟨fun _ => ⟨(write_refused_iff fab eng hw htail s answers).2 ?_, hshadow.trans hassign, ?_⟩,
      fun h => absurd h hlen, fun k hk => ?_⟩
    · rw [hmmio]
      exact show (3 : UInt32) ≠ 0 by decide
    · rw [hslave, hmmio]
    · rw [shifts_nil fab eng hw] at hk
      cases hk

end Write

/-! ## Every request -/

/-- **Which MMIO requests are treated as their length demands.**  All whose length is one of an access, and of the
others exactly those that are answered by nobody: reads that are not of the DMA status and that the RTL, by what its
port is left with, refuses and says so, and writes that neither the main loop nor, through the port, the RTL takes. -/
theorem mmio_length_iff [Inhabited δ] (fab : Fabric) (eng : Engine δ) {msg : Message}
    (hm : msg.header.isType .mmioReadReq = true ∨ msg.header.isType .mmioWriteReq = true) :
    (∀ (s : MainLoop δ) (answers : List (Option Message)), LengthRespected fab eng s msg answers) ↔
      (MainLoop.length msg).toNat ∈ lengths ∨
        (msg.header.isType .mmioReadReq = true → ¬ ReadAnswered fab msg) ∧
        (msg.header.isType .mmioWriteReq = true →
          ¬ (Watched msg.header.address ∧ msg.header.address ≠ 0x1000) ∧
            ¬ RtlTakes fab msg.header.address (MainLoop.length msg)) := by
  by_cases hlen : (MainLoop.length msg).toNat ∈ lengths
  · refine iff_of_true (fun s answers => ?_) (.inl hlen)
    rcases hm with hr | hw
    · exact read_respected fab eng s hr answers hlen
    · exact write_respected fab eng hw hlen s answers
  · rw [or_iff_right hlen]
    rcases hm with hr | hw
    · have hnw : msg.header.isType .mmioWriteReq = false := Header.isType_of_ne hr (by decide)
      simp only [read_respected_iff fab eng _ hr _ hlen, hr, hnw, Bool.false_eq_true, forall_true_left,
        false_implies, and_true]
      exact ⟨fun h => h ⟨{}, {}, default⟩ [], fun h _ _ => h⟩
    · have hnr : msg.header.isType .mmioReadReq = false := Header.isType_of_ne hw (by decide)
      simp only [hw, hnr, Bool.false_eq_true, forall_true_left, false_implies, true_and]
      exact write_respected_iff fab eng hw hlen

theorem mmio_length_iff_four :
    (barRead 0x24 4).header.isType .mmioReadReq = true ∧
      LengthRespected Fabric.plain Engine.idle ⟨{}, {}, ()⟩ (barRead 0x24 4) [] := by
  have hread : (barRead 0x24 4).header.isType .mmioReadReq = true := rfl
  exact ⟨hread, (mmio_length_iff Fabric.plain Engine.idle (.inl hread)).2 (.inl (by decide)) _ _⟩

/-- Three bytes of the DMA status are a success.  So are 20 bytes of AQA, of which the port sees four; the last is
shifted by 152.  So are 20 bytes at 0x40, where no register is.  A write of three bytes to ASQ is refused by the RTL,
and the main loop takes the address all the same. -/
theorem mmio_length_ignored :
    (∃ h p, IsReply (MainLoop.handle Fabric.plain Engine.idle ⟨{}, {}, ()⟩ (barRead 0x1058 3) ⟨[], []⟩).2.log h p ∧
        h.isStatus .success = true ∧ p = [0, 0, 0]) ∧
      (∃ h p, IsReply (MainLoop.handle Fabric.plain Engine.idle ⟨{}, {}, ()⟩ (barRead 0x24 20) ⟨[], []⟩).2.log h p ∧
        h.isStatus .success = true ∧ p.length = 20) ∧
      (∃ h p, IsReply (MainLoop.handle Fabric.plain Engine.idle ⟨{}, {}, ()⟩ (barRead 0x40 20) ⟨[], []⟩).2.log h p ∧
        h.isStatus .success = true ∧ p.length = 20) ∧
      152 ∈ MainLoop.shifts Fabric.plain Engine.idle ⟨{}, {}, ()⟩ (barRead 0x24 20) ⟨[], []⟩ ∧
      (MainLoop.handle Fabric.plain Engine.idle ⟨{}, {}, ()⟩ (barWrite 0x28 [1, 2, 3]) ⟨[], []⟩).1.shadow.asq =
        0x30201 ∧
      ¬ (∀ (s : MainLoop Unit) (answers : List (Option Message)),
        LengthRespected Fabric.plain Engine.idle s (barRead 0x1058 3) answers) := by
  refine ⟨⟨_, _, rfl, by decide, by decide⟩, ⟨_, _, rfl, by decide, by decide⟩, ⟨_, _, rfl, by decide, by decide⟩,
    by decide, by decide, fun h => ?_⟩
  obtain ⟨h', p, hreply, hbad⟩ := ((h ⟨{}, {}, ()⟩ []).refused (by decide)).1
  cases hreply
  cases hbad

end Endpoint
end Vip
