import Mathlib.Data.List.Forall2
import PcieVip.HarnessDma
/-!
# ReadTlps — what `DmaRead` makes of the read requests of the engine

A request is a cycle with `dma_rd_req_valid`.  `DmaRead` looks at the pins after the ticks of its own loop and not after
those of the first loop and of `SendCompletion`, drives every completion with the tag of the descriptor, and reads the
header as one of three DWs and fewer than 1024.  `reads_answered_iff` says for which traces every request is answered
once, in full and with its own tag.
-/
namespace Vip
namespace Verilator

open Ics Word

/-! ## What is to be done -/

def Counts : Nat → List Completion → Prop
  | n, []      => n = 0
  | n, c :: cs => c.byteCount = n ∧ 0 < c.bytes.length ∧ c.bytes.length ≤ n ∧ Counts (n - c.bytes.length) cs

/-- The completions answer the request with this header, by these bytes. -/
structure Answers (hdr : BitVec 128) (data : List UInt8) (cs : List Completion) : Prop where
  tag    : ∀ c ∈ cs, c.tag = Tlp.tag hdr
  counts : Counts (4 * Tlp.lenDw hdr) cs
  data   : cs.flatMap (·.bytes) = data

/-- One DMA_READ_REQ for each request, with its address and length, and its completions after those of the requests
before it. -/
structure ReadsAnswered (trace : Nat → DmaPins) (s : Served) : Prop where
  requests    : s.exchanges.map (fun x => (x.1.address.toBitVec, x.1.transferLen.toNat)) =
    (requestCycles trace 0 s.ticks).map (fun k => (Tlp.address (trace k).reqHdr, 4 * Tlp.lenDw (trace k).reqHdr))
  completions : ∃ groups, s.completions = groups.flatten ∧
    List.Forall₂ (fun x cs => ∃ m, x.2.2 = some m ∧ Answers (trace x.1).reqHdr m.payload cs)
      ((requestCycles trace 0 s.ticks).zip s.exchanges) groups

/-! ## One request -/

section Chunks

variable (trace : Nat → DmaPins) (tag : UInt8) {len : Nat} {payload : List UInt8}

theorem chunkAt_spec (h4 : 4 ∣ len) (hlen : len < 4096) (hpayload : payload.length = len) {sent : Nat} (hs4 : 4 ∣ sent)
    (hs : sent ≤ len) (p : DmaPins) :
    (chunkAt tag len payload sent p).tag = tag.toBitVec ∧ (chunkAt tag len payload sent p).byteCount = len - sent ∧
      (chunkAt tag len payload sent p).bytes = (payload.drop sent).take (min 32 (len - sent)) ∧
      (chunkAt tag len payload sent p).bytes.length = min 32 (len - sent) := by
  have hcount : (UInt16.ofNat (len - sent)).toNat = len - sent := by
    rw [UInt16.toNat_ofNat']
    omega
  have hbytes : (chunkAt tag len payload sent p).bytes = (payload.drop sent).take (min 32 (len - sent)) :=
    completion_bytes _ _ _ _ _ _ _ (Nat.min_le_left _ _) (by omega) (by omega)
  refine ⟨completion_tag _ _ _ _ _ _ _, ?_, hbytes, ?_⟩
  · rw [chunkAt, completion_byteCount _ _ _ _ _ _ _ (by omega), hcount]
  · rw [hbytes, List.length_take, List.length_drop]
    omega

theorem sendChunks_spec (h4 : 4 ∣ len) (hlen : len < 4096) (hpayload : payload.length = len) :
    ∀ (n sent : Nat) (s : Served), 4 ∣ sent → sent ≤ len → len - sent ≤ n →
      ∃ cs, sendChunks trace tag len payload n sent s =
          ⟨s.ticks + (len - sent + 31) / 32, s.exchanges, s.completions ++ cs⟩ ∧
        (∀ c ∈ cs, c.tag = tag.toBitVec) ∧ Counts (len - sent) cs ∧ cs.flatMap (·.bytes) = payload.drop sent
  | 0, sent, s, _, _, hn      => by
    have hend : len - sent = 0 := by omega
    refine ⟨[], ?_, fun _ hc => (by cases hc), hend, ?_⟩
    · rw [sendChunks, hend, List.append_nil]
      rfl
    · rw [List.drop_eq_nil_of_le (by omega)]
      rfl
  | n + 1, sent, s, hs4, hs, hn => by
    rw [sendChunks]
    by_cases hlt : sent < len
    · rw [if_pos hlt]
      obtain ⟨htag, hcount, hbytes, hlength⟩ := chunkAt_spec tag h4 hlen hpayload hs4 hs (trace (s.ticks - 1))
      obtain ⟨cs, hcs, htags, hcounts, hdata⟩ := sendChunks_spec h4 hlen hpayload n (sent + min 32 (len - sent))
        { s.tick with completions := s.completions ++ [chunkAt tag len payload sent (trace (s.ticks - 1))] }
        (by omega) (by omega) (by omega)
      refine ⟨chunkAt tag len payload sent (trace (s.ticks - 1)) :: cs, ?_, List.forall_mem_cons.2 ⟨htag, htags⟩,
        ?_, ?_⟩
      · rw [hcs]
        dsimp only [Served.tick]
        rw [List.append_assoc]
        congr 1
        omega
      · refine ⟨hcount, by omega, by omega, ?_⟩
        rw [hlength, Nat.sub_sub]
        exact hcounts
      · rw [List.flatMap_cons, hbytes, hdata, ← List.drop_drop, List.take_append_drop]
    · rw [if_neg hlt]
      have hend : len - sent = 0 := by omega
      refine ⟨[], ?_, fun _ hc => (by cases hc), hend, ?_⟩
      · rw [hend, List.append_nil]
        rfl
      · rw [List.drop_eq_nil_of_le (by omega)]
        rfl

end Chunks

/-! ## The loop -/

def completionTicks (p : DmaPins) : Nat := (p.reqLen.toNat + 31) / 32

/-- The cycles at which the loop finds a request, on its way from one tick to another. -/
inductive Walk (trace : Nat → DmaPins) : Nat → List Nat → Nat → Prop
  | done (t : Nat) : Walk trace t [] t
  | idle {t e : Nat} {cs : List Nat} (h : (trace t).reqValid = false) (hw : Walk trace (t + 1) cs e) : Walk trace t cs e
  | serve {t e : Nat} {cs : List Nat} (h : (trace t).reqValid = true)
      (hw : Walk trace (t + 1 + completionTicks (trace t)) cs e) : Walk trace t (t :: cs) e

/-- Every request is answered with success and as many bytes as it asks for. -/
def Full (host : Host) : Prop :=
  ∀ es r, ∃ m, host es r = some m ∧ m.header.isStatus .success = true ∧ m.payload.length = r.transferLen.toNat

structure Found where
  cycle       : Nat
  answer      : Message
  completions : List Completion

structure Found.Done (trace : Nat → DmaPins) (tag : UInt8) (x : Found) : Prop where
  tag    : ∀ c ∈ x.completions, c.tag = tag.toBitVec
  counts : Counts (trace x.cycle).reqLen.toNat x.completions
  data   : x.completions.flatMap (·.bytes) = x.answer.payload

section Loop

variable {host : Host} (trace : Nat → DmaPins) (simTime : UInt64) (tag : UInt8)

theorem answerRead_spec (hhost : Full host) (t : Nat) (s : Served) :
    ∃ x : Found, x.cycle = t ∧ x.Done trace tag ∧ answerRead host trace simTime tag (trace t) s =
      ⟨s.ticks + completionTicks (trace t), s.exchanges ++ [((trace t).readRequest simTime, some x.answer)],
        s.completions ++ x.completions⟩ := by
  obtain ⟨m, hm, hok, hlen⟩ := hhost s.exchanges ((trace t).readRequest simTime)
  have hlen : m.payload.length = (trace t).reqLen.toNat := hlen.trans (UInt16.toNat_toUInt32 _)
  have heq := reqLen_eq (trace t)
  have hlt := ((trace t).reqHdr.extractLsb' 96 10).isLt
  have h4 : 4 ∣ (trace t).reqLen.toNat := ⟨_, heq⟩
  obtain ⟨cs, hcs, htag, hcounts, hdata⟩ := sendChunks_spec trace tag h4 (by omega) hlen (trace t).reqLen.toNat 0
    (s.ask host ((trace t).readRequest simTime)) (Nat.dvd_zero 4) (Nat.zero_le _) (Nat.sub_le _ _)
  refine ⟨⟨t, m, cs⟩, rfl, ⟨htag, hcounts, hdata⟩, ?_⟩
  unfold answerRead
  dsimp only [Served.ask] at hcs ⊢
  rw [hm] at hcs ⊢
  rw [isSuccess, if_pos hok]
  exact hcs

def Worked (s s' : Served) : Prop :=
  ∃ xs : List Found, (∀ x ∈ xs, x.Done trace tag) ∧ Walk trace s.ticks (xs.map (·.cycle)) s'.ticks ∧
    s'.exchanges = s.exchanges ++ xs.map (fun x => ((trace x.cycle).readRequest simTime, some x.answer)) ∧
    s'.completions = s.completions ++ xs.flatMap (·.completions)

theorem Worked.refl (s : Served) : Worked trace simTime tag s s :=
  ⟨[], fun _ hx => (by cases hx), Walk.done _, (List.append_nil _).symm, (List.append_nil _).symm⟩

theorem Worked.idle {s s' : Served} (hv : (trace s.ticks).reqValid = false) (h : Worked trace simTime tag s.tick s') :
    Worked trace simTime tag s s' := by
  obtain ⟨xs, hdone, hwalk, hexchanges, hcompletions⟩ := h
  exact ⟨xs, hdone, Walk.idle hv hwalk, hexchanges, hcompletions⟩

theorem Worked.serve (hhost : Full host) {s s' : Served} (hv : (trace s.ticks).reqValid = true)
    (h : Worked trace simTime tag (answerRead host trace simTime tag (trace s.ticks) s.tick) s') :
    Worked trace simTime tag s s' := by
  obtain ⟨x, hcycle, hx, heq⟩ := answerRead_spec trace simTime tag hhost s.ticks s.tick
  rw [heq] at h
  obtain ⟨xs, hdone, hwalk, hexchanges, hcompletions⟩ := h
  refine ⟨x :: xs, List.forall_mem_cons.2 ⟨hx, hdone⟩, ?_, ?_, ?_⟩
  · rw [List.map_cons, hcycle]
    exact Walk.serve hv hwalk
  · rw [hexchanges, List.map_cons, hcycle, List.append_assoc]
    rfl
  · rw [hcompletions, List.flatMap_cons, List.append_assoc]
    rfl

theorem readLoop_worked (hhost : Full host) : ∀ (n : Nat) (s : Served),
    Worked trace simTime tag s (readLoop host trace simTime tag n s).2
  | 0, s     => Worked.refl trace simTime tag s
  | n + 1, s => by
    -- the loop stops after the iteration, or goes on from where it ended
    have hrest : ∀ (s' : Served), Worked trace simTime tag s'
        (if (trace (s'.ticks - 1)).statusValid then (decide ((trace (s'.ticks - 1)).statusError = 0), s')
          else readLoop host trace simTime tag n s').2 := by
      intro s'
      split
      · exact Worked.refl trace simTime tag s'
      · exact readLoop_worked hhost n s'
    rw [readLoop]
    cases hv : (trace s.ticks).reqValid with
    | false => exact Worked.idle trace simTime tag hv (hrest _)
    | true  => exact Worked.serve trace simTime tag hhost hv (hrest _)

end Loop

/-! ## The cycles of the loop -/

section Cycles

variable {trace : Nat → DmaPins}

/-- The completions of each request are over before the next one is presented. -/
def Spaced (trace : Nat → DmaPins) (a e : Nat) : Prop :=
  ∀ j ∈ requestCycles trace a e, ∀ k ∈ requestCycles trace a e, j < k → j + completionTicks (trace j) < k

theorem Walk.le {t e : Nat} {cs : List Nat} (h : Walk trace t cs e) : t ≤ e := by
  induction h with
  | done t => exact Nat.le_refl t
  | idle h hw ih => omega
  | serve h hw ih => omega

theorem Walk.sublist {t e : Nat} {cs : List Nat} (h : Walk trace t cs e) : cs.Sublist (requestCycles trace t e) := by
  induction h with
  | done t => exact List.nil_sublist _
  | @idle t e cs h hw ih =>
    rw [requestCycles_append trace (Nat.le_succ t) hw.le]
    exact ih.trans (List.sublist_append_right _ _)
  | @serve t e cs h hw ih =>
    rw [requestCycles_append trace (Nat.le_succ t) (Nat.le_of_add_right_le hw.le), requestCycles_one, if_pos h,
      requestCycles_append trace (Nat.le_add_right (t + 1) (completionTicks (trace t))) hw.le]
    exact (ih.trans (List.sublist_append_right _ _)).cons_cons t

/-- **The loop finds every request exactly if they are spaced.** -/
theorem Walk.eq_iff {t e : Nat} {cs : List Nat} (h : Walk trace t cs e) :
    cs = requestCycles trace t e ↔ Spaced trace t e := by
  induction h with
  | done t =>
    have hnil : requestCycles trace t t = [] := by
      rw [requestCycles, Nat.sub_self]
      rfl
    rw [Spaced, hnil]
    exact ⟨fun _ _ hj => (by cases hj), fun _ => rfl⟩
  | @idle t e cs h hw ih =>
    have hskip : requestCycles trace t e = requestCycles trace (t + 1) e := by
      rw [requestCycles_append trace (Nat.le_succ t) hw.le, requestCycles_one, h]
      rfl
    rw [Spaced, hskip]
    exact ih
  | @serve t e cs h hw ih =>
    have hhead : requestCycles trace t e = t :: requestCycles trace (t + 1) e := by
      rw [requestCycles_append trace (Nat.le_succ t) (Nat.le_of_add_right_le hw.le), requestCycles_one, if_pos h]
      rfl
    have htail := requestCycles_append trace (Nat.le_add_right (t + 1) (completionTicks (trace t))) hw.le
    rw [hhead, List.cons.injEq, eq_self, true_and]
    constructor
    · intro heq
      -- nothing is presented while the completions are driven
      have hlen := hw.sublist.length_le
      rw [heq, htail, List.length_append] at hlen
      have hnone : requestCycles trace (t + 1) (t + 1 + completionTicks (trace t)) = [] :=
        List.eq_nil_of_length_eq_zero (by omega)
      rw [hnone, List.nil_append] at htail
      have hspaced := ih.1 (heq.trans htail)
      rw [Spaced, hhead, htail]
      intro j hj k hk hjk
      rcases List.mem_cons.1 hj with rfl | hj
      · rcases List.mem_cons.1 hk with rfl | hk
        · omega
        · have := (mem_requestCycles.1 hk).1
          omega
      · rcases List.mem_cons.1 hk with rfl | hk
        · have := (mem_requestCycles.1 hj).1
          omega
        · exact hspaced j hj k hk hjk
    · intro hspaced
      rw [Spaced, hhead] at hspaced
      have hnone : requestCycles trace (t + 1) (t + 1 + completionTicks (trace t)) = [] := by
        rw [List.eq_nil_iff_forall_not_mem]
        intro k hk
        have hmem : k ∈ requestCycles trace (t + 1) e := by
          rw [htail]
          exact List.mem_append_left _ hk
        have hlt := hspaced t List.mem_cons_self k (List.mem_cons_of_mem _ hmem)
        obtain ⟨h1, h2, -⟩ := mem_requestCycles.1 hk
        have := hlt (by omega)
        omega
      rw [hnone, List.nil_append] at htail
      rw [htail]
      refine ih.2 (fun j hj k hk hjk => ?_)
      rw [← htail] at hj hk
      exact hspaced j (List.mem_cons_of_mem _ hj) k (List.mem_cons_of_mem _ hk) hjk

end Cycles

/-! ## Which requests are answered -/

/-- The requests of a trace are such that the harness serves them all: they come after the first loop, each after the
completions of the one before it, and their headers have three DWs or the address 0, less than 1024 DWs, and the tag of
the descriptor. -/
structure Servable (trace : Nat → DmaPins) (tag : UInt8) (a e : Nat) : Prop where
  accepted : ∀ k ∈ requestCycles trace 0 e, a ≤ k
  spaced   : Spaced trace 0 e
  header   : ∀ k ∈ requestCycles trace 0 e, (trace k).reqHdr.extractLsb' 96 10 ≠ 0 ∧
    (Tlp.fourDw (trace k).reqHdr = false ∨ Tlp.address (trace k).reqHdr = 0) ∧ Tlp.tag (trace k).reqHdr = tag.toBitVec

theorem dmaRead_worked {host : Host} (hhost : Full host) (trace : Nat → DmaPins) (simTime : UInt64) (tag : UInt8) :
    Worked trace simTime tag { ticks := acceptTicks trace } (dmaRead host trace simTime tag).2 := by
  unfold dmaRead acceptTicks
  cases acceptLoop trace 1000 0 with
  | none   => exact Worked.refl trace simTime tag _
  | some t => exact readLoop_worked trace simTime tag hhost 2000 _

theorem exists_of_forall₂ {α β : Type} {R : α → β → Prop} {l : List α} {g : List β} (h : List.Forall₂ R l g) :
    ∀ a ∈ l, ∃ b ∈ g, R a b := by
  induction h with
  | nil => exact fun _ ha => (by cases ha)
  | cons hab _ ih =>
    intro a ha
    rcases List.mem_cons.1 ha with rfl | ha
    · exact ⟨_, List.mem_cons_self, hab⟩
    · obtain ⟨b, hb, hr⟩ := ih a ha
      exact ⟨b, List.mem_cons_of_mem _ hb, hr⟩

section Iff

variable {trace : Nat → DmaPins} {simTime : UInt64} {tag : UInt8} {s : Served} {xs : List Found} {a : Nat}

theorem found_all_iff (hw : Walk trace a (xs.map (·.cycle)) s.ticks) :
    xs.map (·.cycle) = requestCycles trace 0 s.ticks ↔
      (∀ k ∈ requestCycles trace 0 s.ticks, a ≤ k) ∧ Spaced trace 0 s.ticks := by
  have hsplit := requestCycles_append trace (Nat.zero_le a) hw.le
  constructor
  · intro heq
    have hlen := hw.sublist.length_le
    rw [heq, hsplit, List.length_append] at hlen
    have hnone : requestCycles trace 0 a = [] := List.eq_nil_of_length_eq_zero (by omega)
    rw [hnone, List.nil_append] at hsplit
    rw [Spaced, hsplit]
    exact ⟨fun k hk => (mem_requestCycles.1 hk).1, hw.eq_iff.1 (heq.trans hsplit)⟩
  · rintro ⟨haccepted, hspaced⟩
    have hnone : requestCycles trace 0 a = [] := by
      rw [List.eq_nil_iff_forall_not_mem]
      intro k hk
      have hle := haccepted k (by rw [hsplit]; exact List.mem_append_left _ hk)
      have hlt := (mem_requestCycles.1 hk).2.1
      omega
    rw [hnone, List.nil_append] at hsplit
    rw [Spaced, hsplit] at hspaced
    rw [hsplit]
    exact hw.eq_iff.2 hspaced

theorem read_eq_iff (p : DmaPins) :
    ((p.readRequest simTime).address.toBitVec, (p.readRequest simTime).transferLen.toNat) =
      (Tlp.address p.reqHdr, 4 * Tlp.lenDw p.reqHdr) ↔
    p.reqHdr.extractLsb' 96 10 ≠ 0 ∧ (Tlp.fourDw p.reqHdr = false ∨ Tlp.address p.reqHdr = 0) := by
  have hlen : (p.readRequest simTime).transferLen.toNat = p.reqLen.toNat := UInt16.toNat_toUInt32 _
  rw [Prod.mk.injEq, hlen, reqLen_eq_iff, ← reqAddr_eq_iff]
  exact and_comm

theorem Answers.exists_mem {hdr : BitVec 128} {data : List UInt8} {cs : List Completion} (h : Answers hdr data cs) :
    ∃ c, c ∈ cs := by
  cases cs with
  | nil      =>
    have hzero : 4 * Tlp.lenDw hdr = 0 := h.counts
    unfold Tlp.lenDw at hzero
    split at hzero
    · cases hzero
    · rename_i hne
      exact absurd (BitVec.eq_of_toNat_eq (show (hdr.extractLsb' 96 10).toNat = 0 by omega)) hne
  | cons c cs => exact ⟨c, List.mem_cons_self⟩

theorem readsAnswered_iff (hdone : ∀ x ∈ xs, x.Done trace tag) (hw : Walk trace a (xs.map (·.cycle)) s.ticks)
    (hex : s.exchanges = xs.map (fun x => ((trace x.cycle).readRequest simTime, some x.answer)))
    (hcpl : s.completions = xs.flatMap (·.completions)) :
    ReadsAnswered trace s ↔ Servable trace tag a s.ticks := by
  have hfst : s.exchanges.map (fun x => (x.1.address.toBitVec, x.1.transferLen.toNat)) =
      (xs.map (·.cycle)).map (fun k => (((trace k).readRequest simTime).address.toBitVec,
        ((trace k).readRequest simTime).transferLen.toNat)) := by
    rw [hex, List.map_map, List.map_map]
    rfl
  have hzip : (xs.map (·.cycle)).zip s.exchanges =
      xs.map (fun x => (x.cycle, (trace x.cycle).readRequest simTime, some x.answer)) := by
    rw [hex, List.zip_map']
  constructor
  · rintro ⟨hrequests, groups, hgroups, hall⟩
    -- as many requests found as presented
    have hlen := congrArg List.length hrequests
    simp only [hfst, List.length_map] at hlen
    have hsub : (xs.map (·.cycle)).Sublist (requestCycles trace 0 s.ticks) := by
      rw [requestCycles_append trace (Nat.zero_le a) hw.le]
      exact hw.sublist.trans (List.sublist_append_right _ _)
    have heq := hsub.eq_of_length (by rw [List.length_map]; exact hlen)
    obtain ⟨haccepted, hspaced⟩ := (found_all_iff hw).1 heq
    rw [hfst, ← heq] at hrequests
    rw [← heq, hzip] at hall
    refine ⟨haccepted, hspaced, fun k hk => ?_⟩
    rw [← heq] at hk
    obtain ⟨hlength, haddress⟩ := (read_eq_iff (trace k)).1 (List.map_inj_left.1 hrequests k hk)
    refine ⟨hlength, haddress, ?_⟩
    -- its completions are among those driven, which have the tag of the descriptor
    obtain ⟨x, hx, rfl⟩ := List.mem_map.1 hk
    obtain ⟨g, hg, m, -, hanswers⟩ := exists_of_forall₂ hall _ (List.mem_map_of_mem hx)
    obtain ⟨c, hc⟩ := hanswers.exists_mem
    have hdriven : c ∈ xs.flatMap (·.completions) := by
      rw [← hcpl, hgroups]
      exact List.mem_flatten.2 ⟨g, hg, hc⟩
    obtain ⟨y, hy, hcy⟩ := List.mem_flatMap.1 hdriven
    exact (hanswers.tag c hc).symm.trans ((hdone y hy).tag c hcy)
  · rintro ⟨haccepted, hspaced, hheader⟩
    have heq := (found_all_iff hw).2 ⟨haccepted, hspaced⟩
    refine ⟨?_, xs.map (·.completions), ?_, ?_⟩
    · rw [hfst, ← heq]
      refine List.map_congr_left (fun k hk => ?_)
      rw [heq] at hk
      obtain ⟨hlength, haddress, -⟩ := hheader k hk
      exact (read_eq_iff (trace k)).2 ⟨hlength, haddress⟩
    · rw [hcpl, List.flatMap_def]
    · rw [← heq, hzip, List.forall₂_map_left_iff, List.forall₂_map_right_iff, List.forall₂_same]
      intro x hx
      have hmem : x.cycle ∈ requestCycles trace 0 s.ticks := by
        rw [← heq]
        exact List.mem_map_of_mem hx
      obtain ⟨hlength, -, htag⟩ := hheader x.cycle hmem
      refine ⟨x.answer, rfl, ?_, ?_, (hdone x hx).data⟩
      · intro c hc
        exact ((hdone x hx).tag c hc).trans htag.symm
      · rw [← (reqLen_eq_iff _).2 hlength]
        exact (hdone x hx).counts

end Iff

/-- **Every read request is answered once, in full and with its own tag, exactly if the requests of the trace are
servable**, for every trace and every host that answers each request with success and the bytes asked for. -/
theorem reads_answered_iff (host : Host) (hhost : Full host) (trace : Nat → DmaPins) (simTime : UInt64) (tag : UInt8) :
    ReadsAnswered trace (dmaRead host trace simTime tag).2 ↔
      Servable trace tag (acceptTicks trace) (dmaRead host trace simTime tag).2.ticks := by
  obtain ⟨xs, hdone, hwalk, hexchanges, hcompletions⟩ := dmaRead_worked hhost trace simTime tag
  exact readsAnswered_iff hdone hwalk hexchanges hcompletions

def readHdr (addr : BitVec 30) (len : BitVec 10) (tag : BitVec 8) : BitVec 128 :=
  0#22 ++ len ++ 0#16 ++ tag ++ 0xff#8 ++ addr ++ 0#34

def sevens : Host :=
  fun _ r => some ⟨makeHeader .dmaReadRsp 0 r.address 0 .success 0 r.transferLen kFlagIsResponse r.transferLen,
    List.replicate r.transferLen.toNat 7⟩

theorem full_sevens : Full sevens := fun _ _ => ⟨_, rfl, rfl, List.length_replicate⟩

def oneRead (k : Nat) : DmaPins :=
  if k = 0 then { descReady := true }
  else if k = 1 then { reqValid := true, reqHdr := readHdr 0x400 16 5 }
  else { statusValid := k = 3 }

theorem reads_answered_one : requestCycles oneRead 0 (dmaRead sevens oneRead 0 5).2.ticks = [1] ∧
    ReadsAnswered oneRead (dmaRead sevens oneRead 0 5).2 := by
  have hticks : (dmaRead sevens oneRead 0 5).2.ticks = 4 := by decide +kernel
  have hcycles : requestCycles oneRead 0 4 = [1] := by decide +kernel
  have haccept : acceptTicks oneRead = 1 := by decide +kernel
  refine ⟨by rw [hticks, hcycles], (reads_answered_iff sevens full_sevens oneRead 0 5).2 ?_⟩
  rw [hticks, haccept]
  refine ⟨?_, ?_, ?_⟩
  · rw [hcycles]
    decide
  · rw [Spaced, hcycles]
    decide +kernel
  · rw [hcycles]
    decide +kernel

/-- A descriptor with tag 0, and the two requests of 128 bytes of a transfer of 256, on consecutive cycles. -/
def twoReads (k : Nat) : DmaPins :=
  if k = 0 then { descReady := true }
  else if k = 1 then { reqValid := true, reqHdr := readHdr 0x400 32 0 }
  else if k = 2 then { reqValid := true, reqHdr := readHdr 0x420 32 1 }
  else { statusValid := k = 7 }

/-- The second request is presented while the first completion is driven, and is never seen. -/
theorem second_read_missed : requestCycles twoReads 0 (dmaRead sevens twoReads 0 0).2.ticks = [1, 2] ∧
    (dmaRead sevens twoReads 0 0).2.exchanges.map (·.1.address) = [0x1000] ∧
    ¬ ReadsAnswered twoReads (dmaRead sevens twoReads 0 0).2 := by
  have hcycles : requestCycles twoReads 0 (dmaRead sevens twoReads 0 0).2.ticks = [1, 2] := by decide +kernel
  have hasked : (dmaRead sevens twoReads 0 0).2.exchanges.map (·.1.address) = [0x1000] := by decide +kernel
  refine ⟨hcycles, hasked, fun h => ?_⟩
  have hlen := congrArg List.length h.requests
  have hone := congrArg List.length hasked
  rw [hcycles, List.length_map] at hlen
  rw [List.length_map] at hone
  rw [hone] at hlen
  cases hlen

end Verilator
end Vip
