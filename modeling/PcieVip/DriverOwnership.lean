import Mathlib.Data.List.Pairwise
import PcieVip.DriverMemory
/-!
# DriverOwnership — what is outstanding, and whose it is

What is outstanding for a call (a doorbell on its way, the batch under way, a request at the host) refers to buffers
that the call still owns: all four live, the descriptors as the driver wrote them (`Owns`, `DevOk`).  The registers a
doorbell will find are those after the writes before it (`World.ahead`, `QueueOk`).  The simulator's own steps keep
this, over any notion of owning that fixes where the buffers lie (`simStep_ok`).
-/
namespace Vip
namespace Driver

open Bytes Mem Verilator Run

/-! ## Live allocations -/

structure LiveOk (live : List Region) : Prop where
  bounds : ∀ r ∈ live, r.base.toNat % pageSize = 0 ∧ r.base.toNat + r.size ≤ 2 ^ 64
  apart  : live.Pairwise (fun r r' => disjoint r.base r.size r')

theorem LiveOk.disjoint {live : List Region} (h : LiveOk live) {r r' : Region} (hr : r ∈ live) (hr' : r' ∈ live)
    (hne : r ≠ r') : disjoint r.base r.size r' := by
  have : Std.Symm (fun r r' : Region => Driver.disjoint r.base r.size r') := ⟨fun _ _ hd => Or.symm hd⟩
  exact h.apart.forall hr hr' hne

theorem LiveOk.erase {live : List Region} (h : LiveOk live) (r : Region) : LiveOk (live.erase r) :=
  ⟨fun r' hr' => h.bounds r' (List.mem_of_mem_erase hr'), h.apart.sublist List.erase_sublist⟩

theorem LiveOk.grants : ∀ (rs : List Region) {live : List Region}, LiveOk live → grants live rs →
    LiveOk (rs.reverse ++ live)
  | [], _, h, _         => h
  | r :: rs, live, h, hg => by
    have hcons : LiveOk (r :: live) :=
      ⟨List.forall_mem_cons.2 ⟨⟨hg.1.1, hg.1.2.1⟩, h.bounds⟩, List.pairwise_cons.2 ⟨hg.1.2.2, h.apart⟩⟩
    have hrest := LiveOk.grants rs hcons hg.2
    rwa [List.reverse_cons, List.append_assoc, List.singleton_append]

def Within (a : UInt64) (n : Nat) (r : Region) : Prop :=
  r.base.toNat ≤ a.toNat ∧ a.toNat + n ≤ r.base.toNat + r.size

theorem covered_of_within {live : List Region} {a : UInt64} {n : Nat} {r : Region} (hr : r ∈ live)
    (hb : r.base.toNat + r.size ≤ 2 ^ 64) (hw : Within a n r) : covered live a n = true := by
  unfold covered
  rw [List.all_eq_true]
  intro j hj
  have hj : j < n := List.mem_range.1 hj
  rw [List.any_eq_true]
  refine ⟨r, hr, decide_eq_true ?_⟩
  obtain ⟨h1, h2⟩ := hw
  have hadd : (a + UInt64.ofNat j).toNat = a.toNat + j := by
    rw [UInt64.toNat_add, UInt64.toNat_ofNat', Nat.mod_eq_of_lt (by omega : j < 2 ^ 64)]
    exact Nat.mod_eq_of_lt (by omega)
  rw [UInt64.toNat_sub_of_le _ _ (UInt64.le_iff_toNat_le.2 (by omega)), hadd]
  omega

theorem apart_of_within {a b : UInt64} {n m : Nat} {r r' : Region} (ha : Within a n r) (hb : Within b m r')
    (hr : r.base.toNat + r.size ≤ 2 ^ 64) (hr' : r'.base.toNat + r'.size ≤ 2 ^ 64)
    (h : disjoint r.base r.size r') : Apart a.toBitVec n b.toBitVec m := by
  have ha1 : a.toBitVec.toNat = a.toNat := rfl
  have hb1 : b.toBitVec.toNat = b.toNat := rfl
  obtain ⟨h1, h2⟩ := ha
  obtain ⟨h3, h4⟩ := hb
  rcases h with h | h
  · exact apart_of_le (by omega) (by omega)
  · exact (apart_of_le (by omega) (by omega)).symm

/-! ## Registers and their writes -/

def Bases (v : Shadow) (a : Addrs) : Prop := v.descBase = a.desc ∧ v.cplBase = a.cpl ∧ v.descCount = 2

def SameBases (v w : Shadow) : Prop := v.descBase = w.descBase ∧ v.cplBase = w.cplBase ∧ v.descCount = w.descCount

theorem SameBases.assign {v w : Shadow} (h : SameBases v w) (address data : UInt64) :
    SameBases (v.assign address data) (w.assign address data) := by
  obtain ⟨h1, h2, h3⟩ := h
  simp only [SameBases, Shadow.assign, apply_ite Shadow.descBase, apply_ite Shadow.cplBase, apply_ite Shadow.descCount,
    h1, h2, h3, and_self]

def RegWrite.apply (v : Shadow) (w : RegWrite) : Shadow := v.assign w.addr w.value.toUInt64

theorem SameBases.foldl : ∀ (ws : List RegWrite) {v w : Shadow}, SameBases v w →
    SameBases (ws.foldl RegWrite.apply v) (ws.foldl RegWrite.apply w)
  | [], _, _, h      => h
  | w :: ws, _, _, h => SameBases.foldl ws (h.assign w.addr w.value.toUInt64)

theorem assign_tail (v : Shadow) (data : UInt64) : v.assign vipDmaDescTail data = v := by
  simp [Shadow.assign, vipDmaDescTail]

/-- The registers once all writes on their way have arrived. -/
def World.ahead (s : World) : Shadow := s.writes.foldl RegWrite.apply s.shadow

/-- Each doorbell on its way finds registers that suit its call. -/
def QueueOk (Q : Nat → Shadow → Prop) : Shadow → List RegWrite → Prop
  | _, []      => True
  | v, w :: ws => (w.addr = vipDmaDescTail → Q w.owner v) ∧ QueueOk Q (RegWrite.apply v w) ws

theorem QueueOk.append {Q : Nat → Shadow → Prop} : ∀ (ws : List RegWrite) {v : Shadow} {w : RegWrite},
    QueueOk Q v ws → (w.addr = vipDmaDescTail → Q w.owner (ws.foldl RegWrite.apply v)) → QueueOk Q v (ws ++ [w])
  | [], _, _, _, hw      => ⟨hw, trivial⟩
  | _ :: ws, _, _, h, hw => ⟨h.1, QueueOk.append ws h.2 hw⟩

theorem QueueOk.mono {Q Q' : Nat → Shadow → Prop} : ∀ (ws : List RegWrite) {v : Shadow}, QueueOk Q v ws →
    (∀ w ∈ ws, w.addr = vipDmaDescTail → ∀ v, Q w.owner v → Q' w.owner v) → QueueOk Q' v ws
  | [], _, _, _      => trivial
  | w :: ws, v, h, hq =>
    ⟨fun ht => hq w List.mem_cons_self ht v (h.1 ht),
      QueueOk.mono ws h.2 (fun w' hw' => hq w' (List.mem_cons_of_mem _ hw'))⟩

theorem QueueOk.sameBases {Q : Nat → Shadow → Prop} (hQ : ∀ i v w, SameBases v w → Q i v → Q i w) :
    ∀ (ws : List RegWrite) {v w : Shadow}, SameBases v w → QueueOk Q v ws → QueueOk Q w ws
  | [], _, _, _, _      => trivial
  | x :: ws, _, _, hs, h =>
    ⟨fun ht => hQ _ _ _ hs (h.1 ht), QueueOk.sameBases hQ ws (hs.assign x.addr x.value.toUInt64) h.2⟩

theorem bases_program (v : Shadow) (a : Addrs) :
    Bases ((programWrites a).foldl (fun v w => v.assign w.1 w.2.toUInt64) v) a := by
  rw [assign_programWrites]
  exact ⟨rfl, rfl, rfl⟩

/-! ## Owning the buffers -/

/-- From the allocation to the first `dma_free_coherent`. -/
def Pc.holds : Pc → Bool
  | .allocating | .freeing _ _ | .returned _ => false
  | _                                        => true

def Pc.locked : Pc → Bool
  | .allocating | .allocated | .freeing _ _ | .returned _ => false
  | _                                                     => true

def Pc.rung : Pc → Bool
  | .allocating | .allocated | .programming _ => false
  | _                                         => true

def Pc.progress : Pc → Nat
  | .programming k => k
  | _              => 6

theorem Pc.locked_holds {pc : Pc} (h : pc.locked = true) : pc.holds = true := by
  cases pc <;> simp_all [Pc.locked, Pc.holds]

/-- A length the driver admits, and data buffers below 4 GiB. -/
structure Fits (a : Addrs) (n : UInt32) : Prop where
  pos : n ≠ 0
  le  : n ≤ 4096
  src : a.src.toNat < 2 ^ 32
  dst : a.dst.toNat < 2 ^ 32

/-- The call still has what its doorbell told the simulator about. -/
structure Owns (s : World) (i : Nat) (a : Addrs) (n : UInt32) : Prop where
  task : ∃ c, s.calls[i]? = some c ∧ c.addrs = a ∧ c.length = n ∧ c.pc.rung = true
  live : ∀ k, region i a n k ∈ s.live
  desc : read s.mem a.desc.toBitVec 64 = descBytes a n
  fits : Fits a n

theorem pageAlign_le (n : Nat) : n ≤ pageAlign n := by
  unfold pageAlign pageSize
  omega

theorem within_base (i : Nat) (a : Addrs) (n : UInt32) (k : Kind) : Within (a.at k) (k.size n) (region i a n k) :=
  ⟨Nat.le_refl _, Nat.add_le_add_left (pageAlign_le _) _⟩

theorem read_write_region {live : List Region} (h : LiveOk live) {r r' : Region} (hr : r ∈ live) (hr' : r' ∈ live)
    (hne : r ≠ r') {a b : UInt64} {n : Nat} {bs : List UInt8} (ha : Within a n r) (hb : Within b bs.length r')
    (mem : BitVec 64 → UInt8) : read (write mem b.toBitVec bs) a.toBitVec n = read mem a.toBitVec n :=
  read_write_apart mem (apart_of_within ha hb (h.bounds r hr).2 (h.bounds r' hr').2 (h.disjoint hr hr' hne))

theorem read_desc_write {live : List Region} (h : LiveOk live) {i j : Nat} {a a' : Addrs} {n n' : UInt32} {k : Kind}
    (hr : region i a n .desc ∈ live) (hr' : region j a' n' k ∈ live) (hne : k ≠ .desc ∨ j ≠ i) {b : UInt64}
    {bs : List UInt8} (hb : Within b bs.length (region j a' n' k)) (mem : BitVec 64 → UInt8) :
    read (write mem b.toBitVec bs) a.desc.toBitVec 64 = read mem a.desc.toBitVec 64 := by
  refine read_write_region h hr hr' ?_ (within_base i a n .desc) hb mem
  intro heq
  rcases hne with hk | hj
  · exact hk (congrArg Region.kind heq).symm
  · exact hj (congrArg Region.owner heq).symm

theorem read_desc_fillMem {live : List Region} (h : LiveOk live) {i j : Nat} {a a' : Addrs} {n n' : UInt32}
    (hr : region i a n .desc ∈ live) (hr' : ∀ k, region j a' n' k ∈ live) (mem : BitVec 64 → UInt8) :
    read (fillMem a' n' mem) a.desc.toBitVec 64 = read mem a.desc.toBitVec 64 := by
  have hsrc : Within a'.src (pattern n'.toNat).length (region j a' n' .src) := by
    rw [show (pattern n'.toNat).length = n'.toNat by simp [pattern]]
    exact within_base j a' n' .src
  have hdst : Within a'.dst (List.replicate n'.toNat (0 : UInt8)).length (region j a' n' .dst) := by
    rw [List.length_replicate]
    exact within_base j a' n' .dst
  have hcpl : Within a'.cpl (List.replicate 32 (0 : UInt8)).length (region j a' n' .cpl) := within_base j a' n' .cpl
  unfold fillMem
  dsimp only
  rw [read_desc_write h hr (hr' .src) (.inl (by decide)) hsrc, read_desc_write h hr (hr' .dst) (.inl (by decide)) hdst,
    read_desc_write h hr (hr' .cpl) (.inl (by decide)) hcpl]

theorem Owns.keep {s s' : World} {i : Nat} {a : Addrs} {n : UInt32} (h : Owns s i a n)
    (htask : ∀ c, s.calls[i]? = some c → c.pc.rung = true →
      ∃ c', s'.calls[i]? = some c' ∧ c'.addrs = c.addrs ∧ c'.length = c.length ∧ c'.pc.rung = true)
    (hlive : ∀ k, region i a n k ∈ s.live → region i a n k ∈ s'.live)
    (hmem : read s'.mem a.desc.toBitVec 64 = read s.mem a.desc.toBitVec 64) : Owns s' i a n := by
  obtain ⟨c, hc, ha, hn, hrung⟩ := h.task
  obtain ⟨c', hc', ha', hn', hrung'⟩ := htask c hc hrung
  exact ⟨⟨c', hc', ha'.trans ha, hn'.trans hn, hrung'⟩, fun k => hlive k (h.live k), hmem.trans h.desc, h.fits⟩

/-! ## What is outstanding -/

def Phase.pending : Phase → List HostReq
  | .waiting _ _ _ r => [r]
  | _                => []

structure MoveOk (a : Addrs) (n : UInt32) (d : Fields) : Prop where
  addr   : (d.opcode = 0 ∧ d.hostAddr = a.src) ∨ (d.opcode ≠ 0 ∧ d.hostAddr = a.dst)
  length : d.length = n.toUInt16

def PointOk (a : Addrs) (n : UInt32) : Point → Prop
  | .move d => MoveOk a n d
  | _       => True

structure BatchOk (a : Addrs) (b : Batch) : Prop where
  descBase : b.descBase = a.desc
  cplBase  : b.cplBase = a.cpl
  count    : b.count = 2

section Outstanding

variable (P : Nat → Addrs → UInt32 → Prop)

/-- A doorbell that finds the registers `v` is its call's. -/
def Suits (i : Nat) (v : Shadow) : Prop := ∃ a n, P i a n ∧ Bases v a

def PhaseOk : Phase → Prop
  | .idle                => True
  | .ready b _ p         => ∃ a n, P b.owner a n ∧ BatchOk a b ∧ PointOk a n p
  | .waiting b index p r => (∃ a n, P b.owner a n ∧ BatchOk a b ∧ PointOk a n p) ∧ (p = .fetch → r = fetchReq b index)

def ReqOk (r : HostReq) : Prop :=
  (r.kind = .msiX ∧ r.awaited = false) ∨
    (r.kind ≠ .msiX ∧ ∃ a n k, P r.owner a n ∧ Within r.addr r.len (region r.owner a n k) ∧
      (r.kind = .dmaWrite → k ≠ .desc ∧ r.payload.length = r.len))

structure DevOk (s : World) : Prop where
  queue   : QueueOk (Suits P) s.shadow s.writes
  phase   : PhaseOk P s.phase
  reqs    : ∀ r ∈ s.requests, ReqOk P r
  pending : s.requests.filter (·.awaited) = s.phase.pending

variable {P}

theorem suits_sameBases (i : Nat) (v w : Shadow) (h : SameBases v w) (hs : Suits P i v) : Suits P i w := by
  obtain ⟨a, n, hp, h1, h2, h3⟩ := hs
  exact ⟨a, n, hp, h.1.symm.trans h1, h.2.1.symm.trans h2, h.2.2.symm.trans h3⟩

theorem DevOk.keep {P' : Nat → Addrs → UInt32 → Prop} {s s' : World} (h : DevOk P s) (hshadow : s'.shadow = s.shadow)
    (hwrites : s'.writes = s.writes) (hphase : s'.phase = s.phase) (hreqs : s'.requests = s.requests)
    (hP : ∀ i, s.outstanding i = true → ∀ a n, P i a n → P' i a n) : DevOk P' s' := by
  have hout : ∀ i, ((∃ w ∈ s.writes, w.owner = i ∧ w.addr = vipDmaDescTail) ∨ s.phase.owner? = some i ∨
      ∃ r ∈ s.requests, r.owner = i ∧ r.kind ≠ .msiX) → s.outstanding i = true := by
    intro i hi
    simpa [World.outstanding, List.any_eq_true, or_assoc] using hi
  constructor
  · rw [hshadow, hwrites]
    refine h.queue.mono _ (fun w hw ht v hq => ?_)
    obtain ⟨a, n, hp, hb⟩ := hq
    exact ⟨a, n, hP _ (hout _ (.inl ⟨w, hw, rfl, ht⟩)) a n hp, hb⟩
  · rw [hphase]
    have hphaseOk := h.phase
    cases hph : s.phase with
    | idle => trivial
    | ready b index p =>
      rw [hph] at hphaseOk
      obtain ⟨a, n, hp, hb, hpt⟩ := hphaseOk
      exact ⟨a, n, hP _ (hout _ (.inr (.inl (by rw [hph]; rfl)))) a n hp, hb, hpt⟩
    | waiting b index p r =>
      rw [hph] at hphaseOk
      obtain ⟨⟨a, n, hp, hb, hpt⟩, hr⟩ := hphaseOk
      exact ⟨⟨a, n, hP _ (hout _ (.inr (.inl (by rw [hph]; rfl)))) a n hp, hb, hpt⟩, hr⟩
  · rw [hreqs]
    intro r hr
    rcases h.reqs r hr with hk | ⟨hk, a, n, k, hp, hw⟩
    · exact .inl hk
    · exact .inr ⟨hk, a, n, k, hP _ (hout _ (.inr (.inr ⟨r, hr, rfl, hk⟩))) a n hp, hw⟩
  · rw [hreqs, hphase, h.pending]

end Outstanding

/-! ## Requests stay within their buffers -/

/-- Buffers as `dma_alloc_coherent` grants them. -/
structure Placed (a : Addrs) (n : UInt32) : Prop where
  fits   : Fits a n
  bounds : ∀ k : Kind, (a.at k).toNat % pageSize = 0 ∧ (a.at k).toNat + pageAlign (k.size n) ≤ 2 ^ 64

theorem toNat_add_of_lt {a b : UInt64} (h : a.toNat + b.toNat < 2 ^ 64) : (a + b).toNat = a.toNat + b.toNat := by
  rw [UInt64.toNat_add]
  exact Nat.mod_eq_of_lt h

theorem toNat_slot (index : UInt32) {size : UInt64} (h : size.toNat ≤ 32) :
    ((index % 2).toUInt64 * size).toNat = index.toNat % 2 * size.toNat := by
  have hslot : index.toNat % 2 < 2 := Nat.mod_lt _ (by decide)
  have hle : index.toNat % 2 * size.toNat ≤ 1 * 32 := Nat.mul_le_mul (by omega) h
  have hmod : (index % 2).toNat = index.toNat % 2 := by rw [UInt32.toNat_mod]; rfl
  rw [UInt64.toNat_mul, UInt32.toNat_toUInt64, hmod]
  exact Nat.mod_eq_of_lt (by omega)

theorem slot_within (i : Nat) {a : Addrs} {n : UInt32} (hp : Placed a n) {k : Kind} (index : UInt32) (size : UInt64)
    (hpos : 0 < size.toNat) (hsize : size.toNat ≤ 32) (hk : 2 * size.toNat ≤ k.size n) :
    Within (a.at k + (index % 2).toUInt64 * size) size.toNat (region i a n k) := by
  have hslot := toNat_slot index hsize
  have hlt : index.toNat % 2 < 2 := Nat.mod_lt _ (by decide)
  have hle : index.toNat % 2 * size.toNat ≤ 1 * size.toNat := Nat.mul_le_mul_right _ (by omega)
  have hpage := pageAlign_le (k.size n)
  have hbound := (hp.bounds k).2
  have hadd := toNat_add_of_lt (a := a.at k) (b := (index % 2).toUInt64 * size) (by omega)
  constructor
  · rw [hadd]
    exact Nat.le_add_right _ _
  · rw [hadd, hslot]
    show _ ≤ (a.at k).toNat + pageAlign (k.size n)
    omega

theorem reqAddr_eq {x : UInt64} (hlow : x.toNat < 2 ^ 32) (hdw : x.toNat % 4 = 0) : reqAddr x = x := by
  have hhigh : x >>> 32 = 0 := by
    apply UInt64.toNat_inj.1
    rw [UInt64.toNat_shiftRight]
    show x.toNat >>> 32 = 0
    rw [Nat.shiftRight_eq_div_pow]
    exact Nat.div_eq_of_lt hlow
  unfold reqAddr
  rw [if_pos hhigh]
  apply UInt64.toNat_inj.1
  rw [UInt64.toNat_shiftLeft, UInt64.toNat_shiftRight]
  show x.toNat >>> 2 <<< 2 % 2 ^ 64 = x.toNat
  rw [Nat.shiftRight_eq_div_pow, Nat.shiftLeft_eq]
  omega

theorem dwords_within (i : Nat) {a : Addrs} {n : UInt32} (hp : Placed a n) {k : Kind} (hk : k.size n = n.toNat)
    (hlow : (a.at k).toNat < 2 ^ 32) {off m : Nat} (hm : 0 < m) (h : off + m ≤ dwords n.toUInt16) :
    Within (reqAddr (a.at k + UInt64.ofNat (4 * off))) (4 * m) (region i a n k) := by
  have hle : n.toNat ≤ 4096 := UInt32.le_iff_toNat_le.1 hp.fits.le
  have hpos : n.toNat ≠ 0 := fun h0 => hp.fits.pos (UInt32.toNat_inj.1 h0)
  have hlen : n.toUInt16.toNat = n.toNat := toUInt16_toNat hp.fits.le
  have hpage : pageAlign n.toNat = 4096 := by
    unfold pageAlign pageSize
    omega
  obtain ⟨halign, hbound⟩ := hp.bounds k
  unfold dwords at h
  unfold pageSize at halign
  rw [hlen] at h
  rw [hk, hpage] at hbound
  have hoff : (UInt64.ofNat (4 * off)).toNat = 4 * off := by
    rw [UInt64.toNat_ofNat']
    exact Nat.mod_eq_of_lt (by omega)
  have hadd : (a.at k + UInt64.ofNat (4 * off)).toNat = (a.at k).toNat + 4 * off := by
    rw [toNat_add_of_lt (by omega), hoff]
  rw [reqAddr_eq (by omega) (by omega)]
  constructor
  · rw [hadd]
    exact Nat.le_add_right _ _
  · rw [hadd]
    show _ ≤ (a.at k).toNat + pageAlign (k.size n)
    rw [hk, hpage]
    omega

/-! ## The simulator's steps -/

structure Untouched (s s' : World) : Prop where
  mem     : s'.mem = s.mem
  live    : s'.live = s.live
  calls   : s'.calls = s.calls
  runLock : s'.runLock = s.runLock
  touches : s'.touches = s.touches
  ahead   : SameBases s'.ahead s.ahead

theorem Untouched.refl (s : World) : Untouched s s := ⟨rfl, rfl, rfl, rfl, rfl, rfl, rfl, rfl⟩

theorem Untouched.trans {s t u : World} (h : Untouched s t) (k : Untouched t u) : Untouched s u :=
  ⟨k.mem.trans h.mem, k.live.trans h.live, k.calls.trans h.calls, k.runLock.trans h.runLock,
    k.touches.trans h.touches, k.ahead.1.trans h.ahead.1, k.ahead.2.1.trans h.ahead.2.1, k.ahead.2.2.trans h.ahead.2.2⟩

theorem requests_keeps (s : World) (rs : List HostReq) : Untouched s { s with requests := rs } :=
  ⟨rfl, rfl, rfl, rfl, rfl, rfl, rfl, rfl⟩

theorem phase_keeps (s : World) (ph : Phase) : Untouched s { s with phase := ph } :=
  ⟨rfl, rfl, rfl, rfl, rfl, rfl, rfl, rfl⟩

theorem finish_keeps (s : World) (b : Batch) (ok : Bool) : Untouched s (s.finish b ok) :=
  ⟨rfl, rfl, rfl, rfl, rfl, SameBases.foldl s.writes ⟨rfl, rfl, rfl⟩⟩

theorem afterCompletion_keeps (s : World) (b : Batch) (index : UInt32) (o : Verilator.Outcome)
    (rsp : Option (UInt32 × List UInt8)) : Untouched s (s.afterCompletion b index o rsp) := by
  unfold World.afterCompletion
  split
  · exact finish_keeps s b false
  · have hirq : ∀ reqs, Untouched s (if o.flags &&& 1 ≠ 0 then { s with requests := reqs } else s) := by
      intro reqs
      split
      · exact requests_keeps s reqs
      · exact Untouched.refl s
    dsimp only
    split
    · exact (hirq _).trans (finish_keeps _ b false)
    · split
      · exact (hirq _).trans (phase_keeps _ _)
      · exact (hirq _).trans (finish_keeps _ b true)

theorem resume_keeps (s : World) (b : Batch) (index : UInt32) (p : Point) (rsp : Option (UInt32 × List UInt8)) :
    Untouched s (s.resume b index p rsp) := by
  cases p with
  | fetch => exact phase_keeps s _
  | move d => exact phase_keeps s _
  | complete o => exact afterCompletion_keeps s b index o rsp

theorem issue_keeps (s : World) (b : Batch) (index : UInt32) (p : Point) (r : HostReq) (sent : Bool) :
    Untouched s (s.issue b index p r sent) := by
  unfold World.issue
  split
  · exact ⟨rfl, rfl, rfl, rfl, rfl, rfl, rfl, rfl⟩
  · exact resume_keeps s b index p none

theorem takeWrite_keeps {s s' : World} (h : s.takeWrite = some s') : Untouched s s' := by
  unfold World.takeWrite at h
  split at h
  · rename_i w ws hphase hwrites
    have htake : Untouched s { s with writes := ws, shadow := s.shadow.assign w.addr w.value.toUInt64 } := by
      refine ⟨rfl, rfl, rfl, rfl, rfl, ?_⟩
      unfold World.ahead
      rw [hwrites]
      exact ⟨rfl, rfl, rfl⟩
    dsimp only at h
    split at h
    · split at h
      · cases h
        exact htake.trans (finish_keeps _ _ _)
      · split at h
        · cases h
          exact htake.trans (phase_keeps _ _)
        · cases h
          exact htake.trans (finish_keeps _ _ _)
    · cases h
      exact htake
  · cases h

theorem simStep_keeps {s s' : World} {e : SimEvent} (h : simStep s e = some s') : Untouched s s' := by
  unfold simStep at h
  split at h
  · exact takeWrite_keeps h
  · cases h
    exact issue_keeps _ _ _ _ _ _
  · cases h
    exact issue_keeps _ _ _ _ _ _
  · split at h
    · cases h
      exact issue_keeps _ _ _ _ _ _
    · cases h
  · cases h
    exact phase_keeps s _
  · cases h
    exact (requests_keeps s _).trans (resume_keeps _ _ _ _ _)
  · cases h

section Simulator

variable {P : Nat → Addrs → UInt32 → Prop}

structure RestOk (P : Nat → Addrs → UInt32 → Prop) (s : World) : Prop where
  queue : QueueOk (Suits P) s.shadow s.writes
  reqs  : ∀ r ∈ s.requests, ReqOk P r
  none  : s.requests.filter (·.awaited) = []

theorem RestOk.ready {s : World} (h : RestOk P s) {b : Batch} {a : Addrs} {n : UInt32} (hp : P b.owner a n)
    (hb : BatchOk a b) (index : UInt32) {p : Point} (hpt : PointOk a n p) :
    DevOk P { s with phase := .ready b index p } :=
  ⟨h.queue, ⟨a, n, hp, hb, hpt⟩, h.reqs, h.none⟩

theorem RestOk.finish {s : World} (h : RestOk P s) (b : Batch) (ok : Bool) : DevOk P (s.finish b ok) :=
  ⟨QueueOk.sameBases suits_sameBases s.writes (v := s.shadow) ⟨rfl, rfl, rfl⟩ h.queue, trivial, h.reqs, h.none⟩

theorem afterFetch_ok {a : Addrs} {n : UInt32} {rsp : Option (UInt32 × List UInt8)}
    (h : ∀ payload, rsp = some (0, payload) → payload.length = kDescBytes.toNat →
      payload = (readDesc a n).bytes ∨ payload = (writeDesc a n).bytes) : PointOk a n (afterFetch rsp) := by
  match rsp with
  | none                   => trivial
  | some (status, payload) =>
    unfold afterFetch
    dsimp only
    split
    · rename_i hok
      have hbytes := h payload (by rw [hok.1]) hok.2
      split
      · rcases hbytes with rfl | rfl
        · exact ⟨.inl ⟨(readDesc a n).opcode_bytes, (readDesc a n).hostAddr_bytes⟩, (readDesc a n).length_field_bytes⟩
        · refine ⟨.inr ⟨?_, (writeDesc a n).hostAddr_bytes⟩, (writeDesc a n).length_field_bytes⟩
          intro hop
          have hone := (writeDesc a n).opcode_bytes
          exact absurd (hone.symm.trans hop) (by simp [writeDesc])
      · trivial
    · trivial

theorem afterChunk_ok {a : Addrs} {n : UInt32} {d : Fields} (h : MoveOk a n d) (rsp : Option (UInt32 × List UInt8)) :
    PointOk a n (afterChunk d rsp) := by
  unfold afterChunk
  split
  · exact h
  · trivial

theorem RestOk.afterCompletion {s : World} (h : RestOk P s) {b : Batch} {a : Addrs} {n : UInt32} (hp : P b.owner a n)
    (hb : BatchOk a b) (index : UInt32) (o : Verilator.Outcome) (rsp : Option (UInt32 × List UInt8)) :
    DevOk P (s.afterCompletion b index o rsp) := by
  unfold World.afterCompletion
  split
  · exact h.finish b false
  · have hirq : RestOk P (if o.flags &&& 1 ≠ 0 then
        { s with requests := s.requests ++ [⟨.msiX, 0, 0, [], b.owner, false⟩] } else s) := by
      split
      · refine ⟨h.queue, ?_, ?_⟩
        · intro r hr
          rcases List.mem_append.1 hr with hr | hr
          · exact h.reqs r hr
          · rw [List.mem_singleton.1 hr]
            exact .inl ⟨rfl, rfl⟩
        · rw [List.filter_append, h.none]
          rfl
      · exact h
    dsimp only
    split
    · exact hirq.finish b false
    · split
      · exact hirq.ready hp hb (index + 1) trivial
      · exact hirq.finish b true

theorem RestOk.resume {s : World} (h : RestOk P s) {b : Batch} {a : Addrs} {n : UInt32} (hp : P b.owner a n)
    (hb : BatchOk a b) (index : UInt32) {p : Point} (hpt : PointOk a n p) {rsp : Option (UInt32 × List UInt8)}
    (hrsp : p = .fetch → ∀ payload, rsp = some (0, payload) → payload.length = kDescBytes.toNat →
      payload = (readDesc a n).bytes ∨ payload = (writeDesc a n).bytes) : DevOk P (s.resume b index p rsp) := by
  cases p with
  | fetch => exact h.ready hp hb index (afterFetch_ok (hrsp rfl))
  | move d => exact h.ready hp hb index (afterChunk_ok hpt rsp)
  | complete o => exact h.afterCompletion hp hb index o rsp

theorem RestOk.issue {s : World} (h : RestOk P s) {b : Batch} {a : Addrs} {n : UInt32} (hp : P b.owner a n)
    (hb : BatchOk a b) (index : UInt32) {p : Point} (hpt : PointOk a n p) {r : HostReq} (hr : ReqOk P r)
    (hawait : r.awaited = true) (hfetch : p = .fetch → r = fetchReq b index) (sent : Bool) :
    DevOk P (s.issue b index p r sent) := by
  unfold World.issue
  split
  · refine ⟨h.queue, ⟨⟨a, n, hp, hb, hpt⟩, hfetch⟩, ?_, ?_⟩
    · intro r' hr'
      rcases List.mem_append.1 hr' with hr' | hr'
      · exact h.reqs r' hr'
      · rw [List.mem_singleton.1 hr']
        exact hr
    · dsimp only
      rw [List.filter_append, h.none, List.filter_cons_of_pos hawait]
      rfl
  · exact h.resume hp hb index hpt (fun _ _ he => by cases he)

theorem DevOk.rest {s : World} (h : DevOk P s) (hnone : s.phase.pending = []) : RestOk P s :=
  ⟨h.queue, h.reqs, h.pending.trans hnone⟩

theorem takeWrite_ok {s s' : World} (h : DevOk P s) (he : s.takeWrite = some s') : DevOk P s' := by
  unfold World.takeWrite at he
  split at he
  · rename_i w ws hphase hwrites
    have hq := h.queue
    rw [hwrites] at hq
    have hrest : RestOk P { s with writes := ws, shadow := s.shadow.assign w.addr w.value.toUInt64 } :=
      ⟨hq.2, h.reqs, h.pending.trans (by rw [hphase]; rfl)⟩
    dsimp only at he
    split at he
    · rename_i hgo
      split at he
      · cases he
        exact hrest.finish _ _
      · split at he
        · cases he
          obtain ⟨a, n, hp, hbases⟩ := hq.1 hgo.1
          have hsame : s.shadow.assign w.addr w.value.toUInt64 = s.shadow := by rw [hgo.1, assign_tail]
          rw [hsame] at hrest ⊢
          exact hrest.ready hp ⟨hbases.1, hbases.2.1, hbases.2.2⟩ _ trivial
        · cases he
          exact hrest.finish _ _
    · cases he
      exact ⟨hrest.queue, by dsimp only; rw [hphase]; trivial, hrest.reqs,
        hrest.none.trans (by dsimp only; rw [hphase]; rfl)⟩
  · cases he

variable (hP : ∀ i a n, P i a n → Placed a n)
include hP

theorem fetchReq_ok {b : Batch} {a : Addrs} {n : UInt32} (hp : P b.owner a n) (hb : BatchOk a b) (index : UInt32) :
    ReqOk P (fetchReq b index) := by
  refine .inr ⟨by simp [fetchReq], a, n, .desc, hp, ?_, by simp [fetchReq]⟩
  have h := slot_within b.owner (hP _ _ _ hp) (k := .desc) index kDescBytes.toUInt64 (by decide) (by decide)
    (Nat.le_refl 64)
  unfold fetchReq
  rw [hb.descBase, hb.count]
  exact h

theorem completeReq_ok {b : Batch} {a : Addrs} {n : UInt32} (hp : P b.owner a n) (hb : BatchOk a b) (index : UInt32)
    (o : Verilator.Outcome) : ReqOk P (completeReq b index o) := by
  refine .inr ⟨by simp [completeReq], a, n, .cpl, hp, ?_, fun _ => ⟨by decide, ?_⟩⟩
  · have h := slot_within b.owner (hP _ _ _ hp) (k := .cpl) index kCplBytes.toUInt64 (by decide) (by decide)
      (Nat.le_refl 32)
    unfold completeReq
    rw [hb.cplBase, hb.count]
    exact h
  · exact length_completion o index

theorem chunkReq_ok {b : Batch} {a : Addrs} {n : UInt32} {d : Fields} (hp : P b.owner a n) (hd : MoveOk a n d)
    {off m : Nat} (hm : 0 < m) (h : off + m ≤ dwords d.length) (data : Nat → UInt8) :
    ReqOk P (chunkReq b d off m data) := by
  have hplaced := hP _ _ _ hp
  rw [hd.length] at h
  unfold chunkReq
  rcases hd.addr with ⟨hop, haddr⟩ | ⟨hop, haddr⟩
  · have hw := dwords_within b.owner hplaced (k := .src) rfl hplaced.fits.src hm h
    rw [if_pos hop, haddr]
    exact .inr ⟨by simp, a, n, .src, hp, hw, by simp⟩
  · have hw := dwords_within b.owner hplaced (k := .dst) rfl hplaced.fits.dst hm h
    rw [if_neg hop, haddr]
    exact .inr ⟨by simp, a, n, .dst, hp, hw, fun _ => ⟨by decide, by simp⟩⟩

/-- **The simulator's steps keep to the buffers of the call they work for.** -/
theorem simStep_ok {s s' : World} {e : SimEvent} (h : DevOk P s) (he : simStep s e = some s') : DevOk P s' := by
  have hphaseOk := h.phase
  unfold simStep at he
  split at he
  · exact takeWrite_ok h he
  · rename_i b index sent hphase
    cases he
    rw [hphase] at hphaseOk
    obtain ⟨a, n, hp, hb, hpt⟩ := hphaseOk
    exact (h.rest (by rw [hphase]; rfl)).issue hp hb index hpt (fetchReq_ok hP hp hb index) rfl (fun _ => rfl) sent
  · rename_i b index o sent hphase
    cases he
    rw [hphase] at hphaseOk
    obtain ⟨a, n, hp, hb, hpt⟩ := hphaseOk
    exact (h.rest (by rw [hphase]; rfl)).issue hp hb index hpt (completeReq_ok hP hp hb index o) rfl
      (fun hf => by cases hf) sent
  · rename_i b index d off m data sent hphase
    split at he
    · rename_i hguard
      cases he
      rw [hphase] at hphaseOk
      obtain ⟨a, n, hp, hb, hpt⟩ := hphaseOk
      have hawait : (chunkReq b d off m data).awaited = true := by
        unfold chunkReq
        split <;> rfl
      exact (h.rest (by rw [hphase]; rfl)).issue hp hb index hpt (chunkReq_ok hP hp hpt hguard.1 hguard.2 data) hawait
        (fun hf => by cases hf) sent
    · cases he
  · rename_i b index d ok hphase
    cases he
    rw [hphase] at hphaseOk
    obtain ⟨a, n, hp, hb, hpt⟩ := hphaseOk
    exact (h.rest (by rw [hphase]; rfl)).ready hp hb index trivial
  · rename_i b index p r hphase
    cases he
    rw [hphase] at hphaseOk
    obtain ⟨⟨a, n, hp, hb, hpt⟩, -⟩ := hphaseOk
    have hrest : RestOk P { s with requests := s.requests.map (fun r : HostReq => { r with awaited := false }) } := by
      refine ⟨h.queue, ?_, ?_⟩
      · intro r' hr'
        obtain ⟨r, hr, rfl⟩ := List.mem_map.1 hr'
        exact (h.reqs r hr).imp_left (fun hk => ⟨hk.1, rfl⟩)
      · simp [List.filter_map, Function.comp_def]
    exact hrest.resume hp hb index hpt (fun _ _ he => by cases he)
  · cases he

end Simulator

end Driver
end Vip
