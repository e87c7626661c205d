import PcieVip.Driver
/-!
# DriverBatch — one register access, one descriptor, one batch

What the functions of `Driver.lean` and the main loop do over a host where everything succeeds: the bytes of descriptors
and completions, a register write and the read of the status register, the registers after `program`, and a batch of two
valid descriptors (`runGenericDma_pair`).
-/
namespace Vip
namespace Driver

open Bytes Ics Mem Verilator

variable {ρ : Type}

/-! ## Descriptors and completions as bytes -/

@[simp] theorem DmaDesc.length_bytes (d : DmaDesc) : d.bytes.length = 32 := by
  simp [DmaDesc.bytes, length_pack, DmaDesc.fields]

theorem DmaDesc.hostAddr_bytes (d : DmaDesc) : readLe64 d.bytes 0 = d.hostAddr := by
  apply UInt64.toNat_inj.1
  rw [readLe64_eq]
  exact leNat_field [] _ (8, d.hostAddr.toNat) d.hostAddr.toNat_lt rfl

theorem DmaDesc.ramAddr_bytes (d : DmaDesc) : readLe32 d.bytes 8 = d.ramAddr := by
  apply UInt32.toNat_inj.1
  rw [readLe32_eq]
  exact leNat_field [(8, _)] _ (4, d.ramAddr.toNat) d.ramAddr.toNat_lt rfl

theorem DmaDesc.length_field_bytes (d : DmaDesc) : readLe16 d.bytes 12 = d.length := by
  apply UInt16.toNat_inj.1
  rw [readLe16_eq _ _ (by simp)]
  exact leNat_field [(8, _), (4, _)] _ (2, d.length.toNat) d.length.toNat_lt rfl

theorem DmaDesc.tag_bytes (d : DmaDesc) : readLe32 d.bytes 16 = d.tag := by
  apply UInt32.toNat_inj.1
  rw [readLe32_eq]
  exact leNat_field [(8, _), (4, _), (2, _), (1, _), (1, _)] _ (4, d.tag.toNat) d.tag.toNat_lt rfl

theorem DmaDesc.opcode_bytes (d : DmaDesc) : d.bytes.getD 14 0 = d.opcode := by
  simp [DmaDesc.bytes, DmaDesc.fields, pack, leBytes]

theorem DmaDesc.flags_bytes (d : DmaDesc) : d.bytes.getD 15 0 = d.flags := by
  simp [DmaDesc.bytes, DmaDesc.fields, pack, leBytes]

theorem storeLe_eq (p : List UInt8) (off : Nat) (v : UInt64) {n : Nat} (hn : n ≤ 8) :
    storeLe p off v n = overlay p off (leBytes n v.toNat) := by
  rw [storeLe, bytes_eq v hn]

theorem completion_eq (o : Verilator.Outcome) (index : UInt32) :
    completion o index =
      pack [(4, o.tag.toNat), (2, o.status.toNat), (2, 0), (4, o.bytes.toNat), (4, index.toNat)] := by
  have hblank : List.replicate kCplBytes.toNat (0 : UInt8) = [] ++ List.replicate 16 0 := rfl
  have hgap : List.replicate 10 (0 : UInt8) = leBytes 2 0 ++ List.replicate 8 0 := rfl
  unfold completion
  dsimp only
  rw [storeLe_eq _ _ _ (by decide), storeLe_eq _ _ _ (by decide), storeLe_eq _ _ _ (by decide),
    storeLe_eq _ _ _ (by decide), hblank, overlay_blank [] 16 0 _ rfl, length_leBytes,
    overlay_blank _ _ 4 _ (by simp), length_leBytes, hgap, ← List.append_assoc, overlay_blank _ _ 8 _ (by simp),
    length_leBytes, overlay_blank _ _ 12 _ (by simp), length_leBytes]
  simp [pack, UInt32.toNat_toUInt64]

theorem length_completion (o : Verilator.Outcome) (index : UInt32) : (completion o index).length = 16 := by
  rw [completion_eq, length_pack]
  rfl

theorem base_assembled (b a : UInt64) :
    ((((b &&& (0xffffffff00000000 : UInt64)) ||| (lower32Bits a).toUInt64) &&& (0xffffffff : UInt64)) |||
      ((upper32Bits a).toUInt64 <<< 32)) = a := by
  have ha := a.toNat_lt
  have hmask : ∀ n : Nat, n &&& 0xffffffff = n % 2 ^ 32 := Nat.and_two_pow_sub_one_eq_mod (n := 32)
  have hdiv : a.toNat / 2 ^ 32 < 2 ^ 32 := by omega
  have hlo : (lower32Bits a).toUInt64.toNat = a.toNat % 2 ^ 32 := by simp [lower32Bits]
  have hhi : ((upper32Bits a).toUInt64 <<< 32).toNat = (a.toNat / 2 ^ 32) <<< 32 := by
    simp [upper32Bits, Nat.shiftRight_eq_div_pow, Nat.shiftLeft_eq]
    omega
  have hsum := Nat.shiftLeft_add_eq_or_of_lt (Nat.mod_lt a.toNat (Nat.two_pow_pos 32)) (a.toNat / 2 ^ 32)
  apply UInt64.toNat_inj.1
  rw [UInt64.toNat_or, UInt64.toNat_and, UInt64.toNat_or, UInt64.toNat_and, hlo, hhi,
    show (0xffffffff : UInt64).toNat = 0xffffffff from rfl, hmask, Nat.or_mod_two_pow, Nat.and_mod_two_pow,
    show (0xffffffff00000000 : UInt64).toNat % 2 ^ 32 = 0 from rfl, Nat.and_zero, Nat.zero_or, Nat.mod_mod, Nat.or_comm,
    ← hsum, Nat.shiftLeft_eq]
  omega

/-! ## Register accesses -/

structure Quiet (s t : Host ρ) : Prop where
  mem     : t.mem = s.mem
  ram     : t.ram = s.ram
  irqDone : t.irqDone = s.irqDone
  msix    : t.msix = s.msix

theorem Quiet.trans {s t u : Host ρ} (h : Quiet s t) (k : Quiet t u) : Quiet s u :=
  ⟨k.mem.trans h.mem, k.ram.trans h.ram, k.irqDone.trans h.irqDone, k.msix.trans h.msix⟩

theorem decodeLe_write (addr : UInt64) (value : UInt32) :
    decodeLe (requestMessage (.write addr value.toUInt64 4)).payload = value.toUInt64 := by
  have hb : (requestMessage (.write addr value.toUInt64 4)).payload = leBytes 4 value.toUInt64.toNat :=
    bytes_eq value.toUInt64 (n := 4) (by decide)
  have hlt : value.toUInt64.toNat < 256 ^ 4 := by rw [UInt32.toNat_toUInt64]; exact value.toNat_lt
  apply UInt64.toNat_inj.1
  rw [decodeLe_eq, hb, List.take_of_length_le (by simp), leNat_leBytes 4 _ hlt]

theorem access_quiet (rtl : Rtl ρ) (v : Shadow) (write : Bool) (address : UInt64) (length : UInt32) (data : UInt64)
    (s : Host ρ) : Quiet s (access (hostEnv rtl) v write address length data s).2 := by
  unfold access
  split
  · exact ⟨rfl, rfl, rfl, rfl⟩
  · exact ⟨rfl, rfl, rfl, rfl⟩

theorem handleWrite_quiet (rtl : Rtl ρ) (v : Shadow) (msg : Message) (length : UInt32) (s : Host ρ) :
    ∃ t, Quiet s t ∧ handleWrite (hostEnv rtl) v msg length s =
      let d := (v.assign msg.header.address (decodeLe msg.payload)).tailDoorbell (hostEnv rtl) msg.header.address
        (decodeLe msg.payload) t
      { shadow := d.1, executed := d.2.1, env := sq0Doorbell (hostEnv rtl) d.1 msg.header.address d.2.2 } :=
  Exists.intro ((hostEnv rtl).sendResponse _ [] (access (hostEnv rtl) v true msg.header.address length
    (decodeLe msg.payload) s).2) ⟨(access_quiet rtl v true msg.header.address length
    (decodeLe msg.payload) s).trans ⟨rfl, rfl, rfl, rfl⟩, rfl⟩

theorem handle_write (rtl : Rtl ρ) (v : Shadow) (addr : UInt64) (value : UInt32) (s : Host ρ) :
    ∃ t, Quiet s t ∧ handle (hostEnv rtl) v (requestMessage (.write addr value.toUInt64 4)) s =
      let d := (v.assign addr value.toUInt64).tailDoorbell (hostEnv rtl) addr value.toUInt64 t
      { shadow := d.1, executed := d.2.1, env := sq0Doorbell (hostEnv rtl) d.1 addr d.2.2 } := by
  have hreset : (requestMessage (.write addr value.toUInt64 4)).header.isType .resetReq = false := rfl
  have hwrite : (requestMessage (.write addr value.toUInt64 4)).header.isType .mmioWriteReq = true := rfl
  have haddr : (requestMessage (.write addr value.toUInt64 4)).header.address = addr := rfl
  obtain ⟨t, ht, heq⟩ := handleWrite_quiet rtl v (requestMessage (.write addr value.toUInt64 4)) 4 s
  refine ⟨t, ht, ?_⟩
  rw [haddr, decodeLe_write] at heq
  rw [← heq]
  unfold handle
  simp only [hreset, hwrite, Bool.false_eq_true, if_false, if_true]
  rfl

theorem iowrite32_register (rtl : Rtl ρ) (value : UInt32) (s : System ρ) {addr : UInt64} (htail : addr ≠ vipDmaDescTail)
    (hsq : addr ≠ 0x1000) :
    ∃ t, Quiet s.host t ∧ iowrite32 rtl value addr s = ⟨s.shadow.assign addr value.toUInt64, t, s.tailWrites⟩ := by
  obtain ⟨t, ht, heq⟩ := handle_write rtl s.shadow addr value s.host
  refine ⟨t, ht, ?_⟩
  have hno : ¬ addr = (0x1054 : UInt64) := htail
  unfold iowrite32
  simp only [heq, Shadow.tailDoorbell, sq0Doorbell, hno, hsq, htail, false_and, if_false]

theorem iowrite32_tail (rtl : Rtl ρ) (tail : UInt32) (s : System ρ) (hen : s.shadow.dmaControl = 1)
    (hcount : s.shadow.descCount = 2) :
    ∃ t, Quiet s.host t ∧
      let r :=
        runGenericDma (hostEnv rtl) s.shadow.descBase s.shadow.cplBase s.shadow.descCount tail s.shadow.descHead t
      iowrite32 rtl tail vipDmaDescTail s =
        ⟨{ s.shadow with descHead := r.head, dmaStatus := if r.ok then 0 else 1 }, r.env,
          s.tailWrites ++ [⟨r.executed, r.env.msix - s.host.msix⟩]⟩ := by
  obtain ⟨t, ht, heq⟩ := handle_write rtl s.shadow vipDmaDescTail tail s.host
  refine ⟨t, ht, ?_⟩
  have hassign : s.shadow.assign vipDmaDescTail tail.toUInt64 = s.shadow := by
    simp [Shadow.assign, vipDmaDescTail]
  have hgo : vipDmaDescTail = 0x1054 ∧ s.shadow.dmaControl &&& 1 ≠ 0 ∧ s.shadow.descCount ≠ 0 := by
    rw [hen, hcount]
    decide
  have hsq : vipDmaDescTail ≠ 0x1000 := by decide
  unfold iowrite32
  dsimp only
  rw [heq, hassign]
  dsimp only
  unfold Shadow.tailDoorbell
  rw [if_pos hgo]
  simp only [sq0Doorbell, hsq, false_and, if_false, if_true, UInt32.toUInt32_toUInt64]

theorem access_status (env : Env (Host ρ)) (v : Shadow) (length : UInt32) (data : UInt64) (s : Host ρ) :
    access env v false vipDmaStatus length data s = ((v.dmaStatus.toUInt64, 0), s) := by
  unfold access
  rw [if_pos ⟨rfl, rfl⟩]

theorem ioread32_status (rtl : Rtl ρ) (s : System ρ) (h : s.shadow.dmaStatus = 0) :
    ∃ t, Quiet s.host t ∧ ioread32 rtl vipDmaStatus s = (0, { s with host := t }) := by
  let rsp := makeHeader .mmioReadRsp 0 vipDmaStatus 0 .success (rtl.simTime s.host.rtl) 4 kFlagIsResponse 4
  have hrsp : handle (hostEnv rtl) s.shadow (requestMessage (.read vipDmaStatus 4)) s.host =
      { shadow := s.shadow, env := (hostEnv rtl).sendResponse rsp [0, 0, 0, 0] s.host } := by
    have hread : handle (hostEnv rtl) s.shadow (requestMessage (.read vipDmaStatus 4)) s.host =
        handleRead (hostEnv rtl) s.shadow (requestMessage (.read vipDmaStatus 4)) 4 s.host := rfl
    have haddr : (requestMessage (.read vipDmaStatus 4)).header.address = vipDmaStatus := rfl
    have hzero : encodeLe (UInt32.toUInt64 0) 4 = [0, 0, 0, 0] := by decide
    rw [hread]
    unfold handleRead
    rw [haddr, access_status, h]
    simp only [if_true, hzero]
    rfl
  have hvalue : (Qemu.mmioReadValue 4 (rpcResult (.read vipDmaStatus 4) (some ⟨rsp, [0, 0, 0, 0]⟩))).toUInt32 = 0 := by
    have hres : rpcResult (.read vipDmaStatus 4) (some ⟨rsp, [0, 0, 0, 0]⟩) = some ⟨Qemu.ofIcs rsp, [0, 0, 0, 0]⟩ := rfl
    have hlen : (Qemu.ofIcs rsp).payloadLen = 4 := rfl
    rw [hres, Qemu.mmioReadValue, if_pos hlen]
    dsimp only
    decide
  refine ⟨{ s.host with response := some ⟨rsp, [0, 0, 0, 0]⟩ }, ⟨rfl, rfl, rfl, rfl⟩, ?_⟩
  unfold ioread32
  dsimp only
  rw [hrsp]
  exact Prod.ext hvalue rfl

theorem pollStatus_idle (rtl : Rtl ρ) (n : Nat) (s : System ρ) (h : s.shadow.dmaStatus = 0) :
    ∃ t, Quiet s.host t ∧ pollStatus rtl (n + 1) s = (true, { s with host := t }) := by
  obtain ⟨t, ht, heq⟩ := ioread32_status rtl s h
  refine ⟨t, ht, ?_⟩
  simp only [pollStatus, heq, if_true]

theorem iowrite32_registers (rtl : Rtl ρ) : ∀ (ws : List (UInt64 × UInt32)) (s : System ρ),
    (∀ w ∈ ws, w.1 ≠ vipDmaDescTail ∧ w.1 ≠ 0x1000) →
    ∃ t, Quiet s.host t ∧ ws.foldl (fun s w => iowrite32 rtl w.2 w.1 s) s =
      ⟨ws.foldl (fun v w => v.assign w.1 w.2.toUInt64) s.shadow, t, s.tailWrites⟩
  | [], s, _      => ⟨s.host, ⟨rfl, rfl, rfl, rfl⟩, rfl⟩
  | w :: ws, s, h => by
    obtain ⟨htail, hsq⟩ := h w List.mem_cons_self
    obtain ⟨t, ht, heq⟩ := iowrite32_register rtl w.2 s htail hsq
    obtain ⟨u, hu, hrest⟩ := iowrite32_registers rtl ws ⟨s.shadow.assign w.1 w.2.toUInt64, t, s.tailWrites⟩
      (fun w' hw => h w' (List.mem_cons_of_mem _ hw))
    exact ⟨u, ht.trans hu, by rw [List.foldl_cons, heq, hrest, List.foldl_cons]⟩

theorem assign_programWrites (v : Shadow) (a : Addrs) :
    (programWrites a).foldl (fun v w => v.assign w.1 w.2.toUInt64) v =
      { v with descBase := a.desc, cplBase := a.cpl, descCount := 2, dmaControl := 1 } := by
  have hclear : (1 : UInt32) &&& 2 = 0 := by decide
  simp [programWrites, Shadow.assign, vipDmaDescBaseLo, vipDmaDescBaseHi, vipDmaCplBaseLo, vipDmaCplBaseHi,
    vipDmaDescCount, vipDmaControl, base_assembled, hclear]

theorem programWrites_register (a : Addrs) : ∀ w ∈ programWrites a, w.1 ≠ vipDmaDescTail ∧ w.1 ≠ 0x1000 := by
  simp [programWrites]
  decide

theorem program_eq (rtl : Rtl ρ) (a : Addrs) (s : System ρ) :
    ∃ t, Quiet s.host t ∧ program rtl a s =
      ⟨{ s.shadow with descBase := a.desc, cplBase := a.cpl, descCount := 2, dmaControl := 1 }, t, s.tailWrites⟩ := by
  obtain ⟨t, ht, heq⟩ := iowrite32_registers rtl (programWrites a) s (programWrites_register a)
  exact ⟨t, ht, by rw [program, heq, assign_programWrites]⟩

/-! ## A batch -/

theorem toUInt16_toNat {length : UInt32} (hle : length ≤ 4096) : length.toUInt16.toNat = length.toNat := by
  have := UInt32.le_iff_toNat_le.1 hle
  rw [UInt32.toNat_toUInt16]
  exact Nat.mod_eq_of_lt (by simp at this; omega)

theorem toUInt16_toUInt32 {length : UInt32} (hle : length ≤ 4096) : length.toUInt16.toUInt32 = length :=
  UInt32.toNat_inj.1 (by rw [UInt16.toNat_toUInt32, toUInt16_toNat hle])

/-- A descriptor the simulator accepts and that starts at the RAM's beginning. -/
structure DmaDesc.Valid (d : DmaDesc) : Prop where
  ram    : d.ramAddr = 0
  pos    : d.length ≠ 0
  le     : d.length ≤ kMaxTransfer
  opcode : d.opcode = 0 ∨ d.opcode = 1

def DmaDesc.move (d : DmaDesc) (s : Host ρ) : Host ρ :=
  if d.opcode = 0 then { s with ram := write s.ram 0 (read s.mem d.hostAddr.toBitVec d.length.toNat) }
  else { s with mem := write s.mem d.hostAddr.toBitVec (read s.ram 0 d.length.toNat) }

theorem transfer_desc (rtl : Rtl ρ) {d : DmaDesc} (hd : d.Valid) (s : Host ρ) :
    transfer (hostEnv rtl) d.bytes s = (⟨0, d.length.toUInt32, d.tag, d.flags, true⟩, d.move s) := by
  have hle : d.length.toNat ≤ 4096 := UInt16.le_iff_toNat_le.1 hd.le
  have hram : (0 : UInt32).toNat + d.length.toNat ≤ kRamBytes := by
    simp only [kRamBytes, UInt32.toNat_zero]
    omega
  unfold transfer DmaDesc.move
  simp only [d.hostAddr_bytes, d.ramAddr_bytes, d.length_field_bytes, d.opcode_bytes, d.flags_bytes, d.tag_bytes,
    hd.ram]
  rw [if_pos ⟨hd.pos, hd.le, hram, hd.opcode⟩]
  split
  · rfl
  · rfl

def DmaDesc.after (d : DmaDesc) (cplAddr : UInt64) (index : UInt32) (s : Host ρ) : Host ρ :=
  let cpl := completion ⟨0, d.length.toUInt32, d.tag, d.flags, true⟩ index
  let s := d.move s
  let s := { s with mem := write s.mem cplAddr.toBitVec cpl }
  if d.flags &&& 1 ≠ 0 then { s with irqDone := s.irqDone + 1, msix := s.msix + 1 } else s

theorem runDescriptor_desc (rtl : Rtl ρ) {d : DmaDesc} (hd : d.Valid) (descBase cplBase : UInt64) (count index : UInt32)
    (s : Host ρ)
    (hread : read s.mem (descBase + (index % count).toUInt64 * kDescBytes.toUInt64).toBitVec 32 = d.bytes) :
    runDescriptor (hostEnv rtl) descBase cplBase count index s =
      ⟨⟨index, true, 0⟩, true, d.after (cplBase + (index % count).toUInt64 * kCplBytes.toUInt64) index s⟩ := by
  let rsp := dmaRsp .dmaReadRsp (descBase + (index % count).toUInt64 * kDescBytes.toUInt64) d.bytes kDescBytes
  have hfetch : (hostEnv rtl).sendRequestToHost .dmaReadReq
      (descBase + (index % count).toUInt64 * kDescBytes.toUInt64) [] kDescBytes true s = (some rsp, s) := by
    dsimp only [rsp]
    rw [← hread]
    rfl
  have hexec : execute (hostEnv rtl) (some rsp) s =
      (⟨0, d.length.toUInt32, d.tag, d.flags, true⟩, d.move s) := by
    have hok : rsp.header.isStatus .success = true ∧ rsp.payload.length = kDescBytes.toNat := ⟨rfl, d.length_bytes⟩
    unfold execute
    dsimp only
    rw [if_pos hok]
    exact transfer_desc rtl hd s
  have hack : ∀ (address : UInt64), isSuccess (some (dmaRsp .dmaWriteRsp address [] kCplBytes)) = true := fun _ => rfl
  unfold runDescriptor DmaDesc.after
  dsimp only
  rw [hfetch, hexec]
  simp only [hostEnv, hack, Bool.not_true, Bool.false_eq_true, if_false, decide_true]

theorem toNat_add_two {head : UInt32} (h : head.toNat + 2 < 2 ^ 32) : (head + 2).toNat = head.toNat + 2 := by
  rw [UInt32.toNat_add]
  exact Nat.mod_eq_of_lt h

theorem slot_even {head : UInt32} (h : head.toNat % 2 = 0) : head % 2 = 0 :=
  UInt32.toNat_inj.1 (by rw [UInt32.toNat_mod]; exact h)

theorem slot_odd {head : UInt32} (h : head.toNat % 2 = 0) (hlt : head.toNat + 2 < 2 ^ 32) : (head + 1) % 2 = 1 := by
  have hadd : (head + 1).toNat = head.toNat + 1 := by
    rw [UInt32.toNat_add]
    exact Nat.mod_eq_of_lt (Nat.lt_of_succ_lt hlt)
  have hmod : (head.toNat + 1) % 2 = 1 := by omega
  apply UInt32.toNat_inj.1
  rw [UInt32.toNat_mod, hadd]
  exact hmod

/-- **A batch of two valid descriptors** from an even head. -/
theorem runGenericDma_pair (rtl : Rtl ρ) {d e : DmaDesc} (hd : d.Valid) (he : e.Valid) (descBase cplBase : UInt64)
    {head : UInt32} (heven : head.toNat % 2 = 0) (hlt : head.toNat + 2 < 2 ^ 32) (s : Host ρ)
    (h0 : read s.mem descBase.toBitVec 32 = d.bytes)
    (h1 : read (d.after cplBase head s).mem (descBase + 32).toBitVec 32 = e.bytes) :
    runGenericDma (hostEnv rtl) descBase cplBase 2 (head + 2) head s =
      ⟨true, head + 2, [⟨head, true, 0⟩, ⟨head + 1, true, 0⟩],
        e.after (cplBase + 16) (head + 1) (d.after cplBase head s)⟩ := by
  have hadd2 := toNat_add_two hlt
  have hslot0 := slot_even heven
  have hslot1 := slot_odd heven hlt
  have hguard : ¬ ((2 : UInt32) = 0 ∨ (2 : UInt32) > 1024 ∨ head + 2 < head ∨ head + 2 - head > 2) := by
    have hsub : head + 2 - head = 2 := by rw [UInt32.add_comm, UInt32.add_sub_cancel]
    rw [hsub, UInt32.lt_iff_toNat_lt, hadd2]
    simp
  have hn : (head + 2).toNat - head.toNat = 2 := by omega
  have hdesc0 : descBase + (0 : UInt32).toUInt64 * kDescBytes.toUInt64 = descBase := by simp
  have hcpl0 : cplBase + (0 : UInt32).toUInt64 * kCplBytes.toUInt64 = cplBase := by simp
  have hdesc1 : descBase + (1 : UInt32).toUInt64 * kDescBytes.toUInt64 = descBase + 32 := rfl
  have hcpl1 : cplBase + (1 : UInt32).toUInt64 * kCplBytes.toUInt64 = cplBase + 16 := rfl
  have hturn0 := runDescriptor_desc rtl hd descBase cplBase 2 head s (by rw [hslot0, hdesc0]; exact h0)
  have hturn1 := runDescriptor_desc rtl he descBase cplBase 2 (head + 1) (d.after cplBase head s)
    (by rw [hslot1, hdesc1]; exact h1)
  rw [hslot0, hcpl0] at hturn0
  rw [hslot1, hcpl1] at hturn1
  unfold runGenericDma
  rw [if_neg hguard, hn]
  simp only [runLoop, hturn0, hturn1, if_true]

theorem runGenericDma_behind (rtl : Rtl ρ) (descBase cplBase : UInt64) {count tail head : UInt32} (h : tail ≤ head)
    (s : Host ρ) : (runGenericDma (hostEnv rtl) descBase cplBase count tail head s).env = s := by
  have hn : tail.toNat - head.toNat = 0 := by
    have := UInt32.le_iff_toNat_le.1 h
    omega
  unfold runGenericDma
  split
  · rfl
  · rw [hn]
    rfl

end Driver
end Vip
