import PcieVip.DriverOwnership
/-!
# DriverSafe — no access outside the driver's buffers

The invariant of the whole: every call holds what its place in `pcie_vip_run_config` promises (`TaskOk`), and whatever
is outstanding refers to buffers its call still owns.  It is kept by every step as long as a buffer is freed only when
nothing of its call is outstanding, so every access lies in live buffers (`touches_inside_of_settled`).  Without that
the simulator reads and writes freed memory: the driver's timeout goes straight to `dma_free_coherent`
(`not_touches_inside`).
-/
namespace Vip
namespace Driver

open Bytes Mem Verilator Run

/-! ## The invariant -/

def programmed (a : Addrs) (k : Nat) (v : Shadow) : Shadow :=
  ((programWrites a).take k).foldl (fun v w => v.assign w.1 w.2.toUInt64) v

structure TaskOk (s : World) (i : Nat) (c : Task) : Prop where
  size  : c.pc = .allocating → c.length ≠ 0 ∧ c.length ≤ 4096
  live  : c.pc.holds = true → ∀ k, region i c.addrs c.length k ∈ s.live
  fits  : c.pc.holds = true → Fits c.addrs c.length
  desc  : c.pc.locked = true → read s.mem c.addrs.desc.toBitVec 64 = descBytes c.addrs c.length
  lock  : c.pc.locked = true → s.runLock = some i
  bases : c.pc.locked = true → c.whole = true → ∃ v, SameBases s.ahead (programmed c.addrs c.pc.progress v)

structure Inv (s : World) : Prop where
  live    : LiveOk s.live
  touched : ∀ t ∈ s.touches, t.inside = true
  tasks   : ∀ (i : Nat) (c : Task), s.calls[i]? = some c → TaskOk s i c
  dev     : DevOk (Owns s) s

theorem Inv.placed {s : World} (h : Inv s) (i : Nat) (a : Addrs) (n : UInt32) (ho : Owns s i a n) : Placed a n :=
  ⟨ho.fits, fun k => h.live.bounds _ (ho.live k)⟩

theorem Inv.untouched {s s' : World} (h : Inv s) (hk : Untouched s s') (hdev : DevOk (Owns s) s') : Inv s' := by
  refine ⟨by rw [hk.live]; exact h.live, by rw [hk.touches]; exact h.touched, ?_, ?_⟩
  · intro i c hc
    rw [hk.calls] at hc
    have ht := h.tasks i c hc
    refine ⟨ht.size, by rw [hk.live]; exact ht.live, ht.fits, by rw [hk.mem]; exact ht.desc,
      by rw [hk.runLock]; exact ht.lock, fun hl hw => ?_⟩
    obtain ⟨v, h1, h2, h3⟩ := ht.bases hl hw
    exact ⟨v, hk.ahead.1.trans h1, hk.ahead.2.1.trans h2, hk.ahead.2.2.trans h3⟩
  · refine hdev.keep rfl rfl rfl rfl (fun i _ a n ho => ?_)
    exact ⟨by rw [hk.calls]; exact ho.task, by rw [hk.live]; exact ho.live, by rw [hk.mem]; exact ho.desc, ho.fits⟩

/-! ## The host -/

theorem fetch_payload {mem : BitVec 64 → UInt8} {a : Addrs} {n : UInt32} {b : Batch} (hb : BatchOk a b)
    (hdesc : read mem a.desc.toBitVec 64 = descBytes a n) (index : UInt32) :
    read mem (fetchReq b index).addr.toBitVec (fetchReq b index).len = (readDesc a n).bytes ∨
      read mem (fetchReq b index).addr.toBitVec (fetchReq b index).len = (writeDesc a n).bytes := by
  rw [descBytes, read_add mem a.desc.toBitVec 32 32] at hdesc
  obtain ⟨hfirst, hsecond⟩ := List.append_inj hdesc (by simp)
  have hslot : index % 2 = 0 ∨ index % 2 = 1 := by
    have hlt : index.toNat % 2 = 0 ∨ index.toNat % 2 = 1 := by omega
    refine hlt.imp (fun h => UInt32.toNat_inj.1 ?_) (fun h => UInt32.toNat_inj.1 ?_)
    · rw [UInt32.toNat_mod]; exact h
    · rw [UInt32.toNat_mod]; exact h
  unfold fetchReq
  dsimp only
  rw [hb.descBase, hb.count]
  rcases hslot with h | h
  · left
    rw [h]
    have hz : a.desc + (0 : UInt32).toUInt64 * kDescBytes.toUInt64 = a.desc := by simp
    rw [hz]
    exact hfirst
  · right
    rw [h]
    exact hsecond

theorem Inv.setMem {s : World} (h : Inv s) {mem : BitVec 64 → UInt8}
    (hkeep : ∀ i a n, region i a n .desc ∈ s.live → read mem a.desc.toBitVec 64 = read s.mem a.desc.toBitVec 64) :
    Inv { s with mem } := by
  refine ⟨h.live, h.touched, ?_, ?_⟩
  · intro i c hc
    have ht := h.tasks i c hc
    refine ⟨ht.size, ht.live, ht.fits, fun hl => ?_, ht.lock, ht.bases⟩
    exact (hkeep i _ _ (ht.live (Pc.locked_holds hl) .desc)).trans (ht.desc hl)
  · refine h.dev.keep rfl rfl rfl rfl (fun i _ a n ho => ?_)
    exact ⟨ho.task, ho.live, (hkeep i a n (ho.live .desc)).trans ho.desc, ho.fits⟩

theorem Inv.access {s : World} (h : Inv s) {r : HostReq} (hk : r.kind ≠ .msiX) (hr : ReqOk (Owns s) r) (ok : Bool) :
    Inv (s.access r ok) := by
  obtain ⟨-, a, n, k, ho, hw, hwrite⟩ := hr.resolve_left (fun hm => hk hm.1)
  have hmem : Inv { s with mem := if r.kind = .dmaWrite ∧ ok = true then write s.mem r.addr.toBitVec r.payload
                                  else s.mem } := by
    refine h.setMem (fun i a' n' hr' => ?_)
    split
    · rename_i hgo
      obtain ⟨hne, hlen⟩ := hwrite hgo.1
      exact read_desc_write h.live hr' (ho.live k) (.inl hne) (by rw [hlen]; exact hw) s.mem
    · rfl
  refine ⟨hmem.live, ?_, ?_, ?_⟩
  · intro t ht
    rcases List.mem_append.1 ht with ht | ht
    · exact h.touched t ht
    · rw [List.mem_singleton.1 ht]
      exact covered_of_within (ho.live k) (h.live.bounds _ (ho.live k)).2 hw
  · intro i c hc
    have ht := hmem.tasks i c hc
    exact ⟨ht.size, ht.live, ht.fits, ht.desc, ht.lock, ht.bases⟩
  · exact hmem.dev.keep rfl rfl rfl rfl (fun i _ a n ho => ⟨ho.task, ho.live, ho.desc, ho.fits⟩)

theorem deliver_ok {s : World} (h : Inv s) {r : HostReq} {rs : List HostReq} (hreqs : s.requests = r :: rs)
    {rsp : UInt32 × List UInt8}
    (hrsp : rsp.1 = 0 → r.kind = .dmaRead → rsp.2 = read s.mem r.addr.toBitVec r.len) :
    Inv ({ s with requests := rs }.deliver r rsp) := by
  have hsub : ∀ r' ∈ rs, ReqOk (Owns s) r' :=
    fun r' hr' => h.dev.reqs r' (by rw [hreqs]; exact List.mem_cons_of_mem _ hr')
  have hpend := h.dev.pending
  rw [hreqs] at hpend
  have hphaseOk := h.dev.phase
  unfold World.deliver
  split
  · rename_i b index p r' haw hphase
    rw [hphase] at hphaseOk
    rw [hphase, List.filter_cons_of_pos haw] at hpend
    obtain ⟨⟨a, n, ho, hb, hpt⟩, hfetch⟩ := hphaseOk
    have hrest : RestOk (Owns s) { s with requests := rs } := ⟨h.dev.queue, hsub, (List.cons.inj hpend).2⟩
    refine h.untouched ((requests_keeps s rs).trans (resume_keeps _ _ _ _ _)) (hrest.resume ho hb index hpt ?_)
    intro hp payload heq _
    have hr : r = fetchReq b index := (List.cons.inj hpend).1.trans (hfetch hp)
    have hzero : rsp = (0, payload) := Option.some.inj heq
    have hread := hrsp (by rw [hzero]) (by rw [hr]; rfl)
    rw [hzero, hr] at hread
    dsimp only at hread
    rw [hread]
    exact fetch_payload hb ho.desc index
  · rename_i hno
    have haw : r.awaited = false := by
      cases haw : r.awaited with
      | false => rfl
      | true =>
        rw [List.filter_cons_of_pos haw] at hpend
        cases hphase : s.phase with
        | idle => rw [hphase] at hpend; cases hpend
        | ready b index p => rw [hphase] at hpend; cases hpend
        | waiting b index p r' => exact absurd hphase (hno b index p r' haw)
    rw [List.filter_cons_of_neg (by rw [haw]; decide)] at hpend
    exact h.untouched (requests_keeps s rs) ⟨h.dev.queue, hphaseOk, hsub, hpend⟩

/-- **Serving a request touches live buffers only.** -/
theorem serve_ok {s s' : World} {ok : Bool} (h : Inv s) (he : s.serve ok = some s') : Inv s' := by
  unfold World.serve at he
  split at he
  · cases he
  · rename_i r rs hreqs
    have hr := h.dev.reqs r (by rw [hreqs]; exact List.mem_cons_self)
    dsimp only at he
    split at he
    · rename_i hk
      cases he
      have haw : r.awaited = false := (hr.resolve_right (fun hm => hm.1 hk)).2
      have hpend := h.dev.pending
      rw [hreqs, List.filter_cons_of_neg (by rw [haw]; decide)] at hpend
      refine h.untouched ⟨rfl, rfl, rfl, rfl, rfl, rfl, rfl, rfl⟩ ⟨h.dev.queue, h.dev.phase, ?_, hpend⟩
      exact fun r' hr' => h.dev.reqs r' (by rw [hreqs]; exact List.mem_cons_of_mem _ hr')
    · rename_i hk
      cases he
      have hsame : (s.access r ok).requests = r :: rs := hreqs
      refine deliver_ok (h.access hk hr ok) hsame ?_
      intro hzero hread
      have hok : ok = true := by
        cases ok with
        | true => rfl
        | false => exact absurd hzero (by simp [World.answer])
      simp [World.answer, World.access, hread, hok]

/-! ## The driver's steps -/

theorem Inv.driver {s s' : World} {i : Nat} {c' : Task} (h : Inv s)
    (hcalls : s'.calls = s.calls.set i c') (hlive : LiveOk s'.live) (htouches : s'.touches = s.touches)
    (hself : TaskOk s' i c') (hothers : ∀ (j : Nat) (d : Task), j ≠ i → s.calls[j]? = some d → TaskOk s' j d)
    (hdev : DevOk (Owns s') s') : Inv s' := by
  refine ⟨hlive, by rw [htouches]; exact h.touched, ?_, hdev⟩
  intro j d hd
  rw [hcalls, List.getElem?_set] at hd
  split at hd
  · rename_i hij
    split at hd
    · cases hd
      rw [← hij]
      exact hself
    · cases hd
  · rename_i hij
    exact hothers j d (fun heq => hij heq.symm) hd

theorem rung_set {s s' : World} {i : Nat} {c : Task} (c' : Task) (hc : s.calls[i]? = some c)
    (hcalls : s'.calls = s.calls.set i c')
    (hsame : c.pc.rung = true → c'.addrs = c.addrs ∧ c'.length = c.length ∧ c'.pc.rung = true) {j : Nat} {d : Task}
    (hd : s.calls[j]? = some d) (hrung : d.pc.rung = true) :
    ∃ d', s'.calls[j]? = some d' ∧ d'.addrs = d.addrs ∧ d'.length = d.length ∧ d'.pc.rung = true := by
  rw [hcalls]
  by_cases hij : j = i
  · subst hij
    have heq : c = d := Option.some.inj (hc.symm.trans hd)
    rw [← heq] at hrung ⊢
    exact ⟨c', (set_getElem? hc j c').2 (.inl ⟨rfl, rfl⟩), hsame hrung⟩
  · exact ⟨d, (set_getElem? hc j d).2 (.inr ⟨hij, hd⟩), rfl, rfl, hrung⟩

theorem TaskOk.keep {s s' : World} {j : Nat} {d : Task} (h : TaskOk s j d)
    (hlive : ∀ r ∈ s.live, r.owner = j → r ∈ s'.live)
    (hdesc : d.pc.locked = true → read s'.mem d.addrs.desc.toBitVec 64 = read s.mem d.addrs.desc.toBitVec 64)
    (hlock : d.pc.locked = true → s'.runLock = s.runLock ∧ SameBases s'.ahead s.ahead) : TaskOk s' j d := by
  refine ⟨h.size, fun hh k => hlive _ (h.live hh k) rfl, h.fits, fun hl => (hdesc hl).trans (h.desc hl),
    fun hl => (hlock hl).1.trans (h.lock hl), fun hl hw => ?_⟩
  obtain ⟨v, h1, h2, h3⟩ := h.bases hl hw
  have hb := (hlock hl).2
  exact ⟨v, hb.1.trans h1, hb.2.1.trans h2, hb.2.2.trans h3⟩

theorem Inv.locked_unique {s : World} (h : Inv s) {i j : Nat} {c d : Task} (hc : s.calls[i]? = some c)
    (hd : s.calls[j]? = some d) (hl : c.pc.locked = true) (hl' : d.pc.locked = true) : j = i :=
  Option.some.inj (((h.tasks j d hd).lock hl').symm.trans ((h.tasks i c hc).lock hl))

structure Pc.Follows (pc pc' : Pc) : Prop where
  alloc  : pc' ≠ .allocating
  holds  : pc'.holds = true → pc.holds = true
  locked : pc'.locked = true → pc.locked = true ∧ pc'.progress = pc.progress
  rung   : pc.rung = true → pc'.rung = true

theorem Inv.moveOn {s : World} {i : Nat} {c : Task} (h : Inv s) (hc : s.calls[i]? = some c) {pc : Pc} {irqDone : Nat}
    {runLock : Option Nat} (hf : c.pc.Follows pc)
    (hlock : runLock = s.runLock ∨ (c.pc.locked = true ∧ pc.locked = false)) :
    Inv ({ s with irqDone, runLock }.setPc i c pc) := by
  have ht := h.tasks i c hc
  have hkeeps : pc.locked = true → runLock = s.runLock := fun hl =>
    hlock.resolve_right (fun hun => absurd hl (by rw [hun.2]; decide))
  refine h.driver rfl h.live rfl ?_ ?_ ?_
  · refine ⟨fun ha => absurd ha hf.alloc, fun hh => ht.live (hf.holds hh), fun hh => ht.fits (hf.holds hh),
      fun hl => ht.desc (hf.locked hl).1, fun hl => (hkeeps hl).trans (ht.lock (hf.locked hl).1), fun hl hw => ?_⟩
    dsimp only
    rw [(hf.locked hl).2]
    exact ht.bases (hf.locked hl).1 hw
  · intro j d hne hd
    refine (h.tasks j d hd).keep (fun r hr _ => hr) (fun _ => rfl) (fun hl => ⟨?_, rfl, rfl, rfl⟩)
    refine hlock.resolve_right (fun hun => hne ?_)
    exact h.locked_unique hc hd hun.1 hl
  · refine h.dev.keep rfl rfl rfl rfl (fun j _ a n ho => ho.keep ?_ (fun _ hr => hr) rfl)
    exact fun d hd hr => rung_set { c with pc } hc rfl (fun hr => ⟨rfl, rfl, hf.rung hr⟩) hd hr

theorem Pc.Follows.loop {pc pc' : Pc} (hl : pc.locked = true) (hp : pc.progress = 6) (hr : pc'.rung = true)
    (hl' : pc'.locked = true) : pc.Follows pc' := by
  have hp' : pc'.progress = 6 := by
    cases pc' <;> simp_all [Pc.rung, Pc.progress]
  refine ⟨?_, fun _ => Pc.locked_holds hl, fun _ => ⟨hl, hp'.trans hp.symm⟩, fun _ => hr⟩
  rintro rfl
  cases hl'

theorem Inv.lock {s : World} {i : Nat} {c : Task} (h : Inv s) (hc : s.calls[i]? = some c) (hpc : c.pc = .allocated)
    (hfree : s.runLock = none) :
    Inv ({ s with runLock := some i, mem := write s.mem c.addrs.desc.toBitVec (descBytes c.addrs c.length) }.setPc i c
      (.programming 0)) := by
  have ht := h.tasks i c hc
  have hlive := ht.live (by rw [hpc]; rfl)
  have hlen : (descBytes c.addrs c.length).length = 64 := by simp [descBytes]
  have hkeep : ∀ (j : Nat) (a : Addrs) (n : UInt32), j ≠ i → region j a n .desc ∈ s.live →
      read (write s.mem c.addrs.desc.toBitVec (descBytes c.addrs c.length)) a.desc.toBitVec 64 =
        read s.mem a.desc.toBitVec 64 := fun j a n hne hr =>
    read_desc_write h.live hr (hlive .desc) (.inr hne.symm) (by rw [hlen]; exact within_base i _ _ .desc) s.mem
  refine h.driver rfl h.live rfl ?_ ?_ ?_
  · refine ⟨fun ha => (by cases ha), fun _ => hlive, fun _ => ht.fits (by rw [hpc]; rfl), fun _ => ?_, fun _ => rfl,
      fun _ _ => ⟨_, rfl, rfl, rfl⟩⟩
    exact read_write_same _ _ hlen (by decide)
  · intro j d hne hd
    have hd' := h.tasks j d hd
    have hun : d.pc.locked = false := by
      cases hl : d.pc.locked with
      | false => rfl
      | true => exact absurd ((hd'.lock hl).symm.trans hfree) (by simp)
    refine hd'.keep (fun r hr _ => hr) (fun hl => ?_) (fun hl => ?_)
    · rw [hun] at hl; cases hl
    · rw [hun] at hl; cases hl
  · refine h.dev.keep rfl rfl rfl rfl (fun j _ a n ho => ?_)
    have hne : j ≠ i := by
      rintro rfl
      obtain ⟨d, hd, -, -, hrung⟩ := ho.task
      rw [← Option.some.inj (hc.symm.trans hd), hpc] at hrung
      cases hrung
    refine ho.keep (fun d hd hr => ?_) (fun _ hr => hr) (hkeep j a n hne (ho.live .desc))
    refine rung_set { c with pc := .programming 0 } hc rfl (fun hr => ?_) hd hr
    rw [hpc] at hr
    cases hr

theorem Inv.fill {s : World} {i : Nat} {c : Task} (h : Inv s) (hc : s.calls[i]? = some c) (hh : c.pc.holds = true) :
    Inv { s with mem := fillMem c.addrs c.length s.mem } :=
  h.setMem (fun _ _ _ hr => read_desc_fillMem h.live hr ((h.tasks i c hc).live hh) s.mem)

theorem post_ahead (s : World) (i : Nat) (w : UInt64 × UInt32) :
    (s.post i w false).ahead = s.ahead.assign w.1 w.2.toUInt64 := by
  simp [World.post, World.ahead, RegWrite.apply]

theorem ahead_setPc (s : World) (i : Nat) (c : Task) (pc : Pc) (w : UInt64 × UInt32) (lost : Bool) (irqDone : Nat) :
    (({ s with irqDone }.post i w lost).setPc i c pc).ahead = (s.post i w lost).ahead := by
  cases lost <;> rfl

theorem Inv.post {s : World} {i : Nat} {c : Task} (h : Inv s) (hc : s.calls[i]? = some c) (hl : c.pc.locked = true)
    (pc : Pc) (whole : Bool) (irqDone : Nat) (hpc : pc.locked = true) (hrung : c.pc.rung = true → pc.rung = true)
    (w : UInt64 × UInt32)
    (lost : Bool)
    (hbases : whole = true → ∃ v, SameBases (s.post i w lost).ahead (programmed c.addrs pc.progress v))
    (htail : lost = false → w.1 = vipDmaDescTail → pc.rung = true ∧ Bases s.ahead c.addrs) :
    Inv (({ s with irqDone }.post i w lost).setPc i { c with whole } pc) := by
  have ht := h.tasks i c hc
  have hh := Pc.locked_holds hl
  have hahead := ahead_setPc s i { c with whole } pc w lost irqDone
  have hlive : (({ s with irqDone }.post i w lost).setPc i { c with whole } pc).live = s.live := by cases lost <;> rfl
  have hmem : (({ s with irqDone }.post i w lost).setPc i { c with whole } pc).mem = s.mem := by cases lost <;> rfl
  have hlock : (({ s with irqDone }.post i w lost).setPc i { c with whole } pc).runLock = s.runLock := by
    cases lost <;> rfl
  have hcalls : (({ s with irqDone }.post i w lost).setPc i { c with whole } pc).calls =
      s.calls.set i { c with whole, pc } := by cases lost <;> rfl
  have howns : ∀ j a n, Owns s j a n → Owns (({ s with irqDone }.post i w lost).setPc i { c with whole } pc) j a n := by
    intro j a n ho
    refine ho.keep (fun d hd hr => ?_) (fun k hr => by rw [hlive]; exact hr) (by rw [hmem])
    exact rung_set { c with whole, pc } hc hcalls (fun hr => ⟨rfl, rfl, hrung hr⟩) hd hr
  refine h.driver hcalls (by rw [hlive]; exact h.live) (by cases lost <;> rfl) ?_ ?_ ?_
  · refine ⟨fun ha => ?_, fun _ => by rw [hlive]; exact ht.live hh, fun _ => ht.fits hh,
      fun _ => by rw [hmem]; exact ht.desc hl, fun _ => by rw [hlock]; exact ht.lock hl, fun _ hw => ?_⟩
    · dsimp only at ha
      rw [ha] at hpc
      cases hpc
    · rw [hahead]
      exact hbases hw
  · intro j d hne hd
    have hun : d.pc.locked = true → False := fun hl' => hne (h.locked_unique hc hd hl hl')
    exact (h.tasks j d hd).keep (fun r hr _ => by rw [hlive]; exact hr) (fun hl' => (hun hl').elim)
      (fun hl' => (hun hl').elim)
  · cases lost with
    | true => exact h.dev.keep rfl rfl rfl rfl (fun j _ a n ho => howns j a n ho)
    | false =>
      have hk : DevOk (Owns (({ s with irqDone }.post i w false).setPc i { c with whole } pc)) s :=
        h.dev.keep rfl rfl rfl rfl (fun j _ a n ho => howns j a n ho)
      refine ⟨QueueOk.append s.writes hk.queue (fun haddr => ?_), hk.phase, hk.reqs, hk.pending⟩
      obtain ⟨hr, hb⟩ := htail rfl haddr
      refine ⟨c.addrs, c.length, ⟨?_, by rw [hlive]; exact ht.live hh, by rw [hmem]; exact ht.desc hl, ht.fits hh⟩, hb⟩
      have hlt := (List.getElem?_eq_some_iff.1 hc).1
      refine ⟨{ c with whole, pc }, ?_, rfl, rfl, hr⟩
      rw [hcalls, List.getElem?_set_self hlt]

theorem programmed_succ {a : Addrs} {k : Nat} {w : UInt64 × UInt32} (hw : (programWrites a)[k]? = some w) (v : Shadow) :
    programmed a (k + 1) v = (programmed a k v).assign w.1 w.2.toUInt64 := by
  unfold programmed
  rw [List.take_add_one, hw, List.foldl_append]
  rfl

theorem Inv.programWrite {s : World} {i k : Nat} {c : Task} (h : Inv s) (hc : s.calls[i]? = some c)
    (hpc : c.pc = .programming k) {w : UInt64 × UInt32} (hw : (programWrites c.addrs)[k]? = some w) (lost : Bool) :
    Inv ((s.post i w lost).setPc i { c with whole := c.whole && !lost } (.programming (k + 1))) := by
  have hl : c.pc.locked = true := by rw [hpc]; rfl
  refine h.post hc hl (.programming (k + 1)) _ s.irqDone rfl (fun hr => ?_) w lost (fun hwhole => ?_)
    (fun _ ht => absurd ht (programWrites_register _ w (List.mem_of_getElem? hw)).1)
  · rw [hpc] at hr
    cases hr
  · rw [Bool.and_eq_true, Bool.not_eq_true'] at hwhole
    obtain ⟨v, hv⟩ := (h.tasks i c hc).bases hl hwhole.1
    rw [hpc] at hv
    refine ⟨v, ?_⟩
    rw [hwhole.2, post_ahead]
    exact (programmed_succ hw v).symm ▸ hv.assign w.1 w.2.toUInt64

theorem Inv.bases_of_whole {s : World} {i : Nat} {c : Task} (h : Inv s) (hc : s.calls[i]? = some c)
    (hl : c.pc.locked = true) (hprog : c.pc.progress = 6) (hw : c.whole = true) : Bases s.ahead c.addrs := by
  obtain ⟨v, h1, h2, h3⟩ := (h.tasks i c hc).bases hl hw
  rw [hprog] at h1 h2 h3
  obtain ⟨b1, b2, b3⟩ := bases_program v c.addrs
  exact ⟨h1.trans b1, h2.trans b2, h3.trans b3⟩

theorem Inv.ring {s : World} {i iter : Nat} {c : Task} (h : Inv s) (hc : s.calls[i]? = some c)
    (hpc : c.pc = .ringing iter) (lost : Bool) (hg : lost = false → c.whole = true) (tail : UInt32) :
    Inv (({ s with irqDone := 0 }.post i (vipDmaDescTail, tail) lost).setPc i c (.waiting iter)) := by
  have hl : c.pc.locked = true := by rw [hpc]; rfl
  have hprog : c.pc.progress = 6 := by rw [hpc]; rfl
  refine h.post hc hl (.waiting iter) c.whole 0 rfl (fun _ => rfl) _ lost (fun hw => ?_)
    (fun hlost _ => ⟨rfl, h.bases_of_whole hc hl hprog (hg hlost)⟩)
  obtain ⟨v, hv⟩ := (h.tasks i c hc).bases hl hw
  rw [hprog] at hv
  refine ⟨v, ?_⟩
  cases lost with
  | true => exact hv
  | false =>
    rw [post_ahead, assign_tail]
    exact hv

theorem Inv.grow {s : World} {i : Nat} {c c' : Task} (h : Inv s) (hc : s.calls[i]? = some c) (hpc : c.pc = .allocating)
    {new : List Region} (hnew : grants s.live new)
    (hself : ∀ s', s'.live = new.reverse ++ s.live → TaskOk s' i c') :
    Inv { s with live := new.reverse ++ s.live, calls := s.calls.set i c' } := by
  refine h.driver rfl (h.live.grants new hnew) rfl (hself _ rfl) ?_ ?_
  · intro j d hne hd
    exact (h.tasks j d hd).keep (fun r hr _ => List.mem_append_right _ hr) (fun _ => rfl)
      (fun _ => ⟨rfl, rfl, rfl, rfl⟩)
  · refine h.dev.keep rfl rfl rfl rfl (fun j _ a n ho => ?_)
    refine ho.keep (fun d hd hr => ?_) (fun k hr => List.mem_append_right _ hr) rfl
    refine rung_set c' hc rfl (fun hr => ?_) hd hr
    rw [hpc] at hr
    cases hr

theorem Inv.allocate {s s' : World} {i : Nat} {c : Task} {desc cpl src dst : Option UInt64} (h : Inv s)
    (hc : s.calls[i]? = some c) (hpc : c.pc = .allocating) (hsrc : ∀ a ∈ src, a.toNat < 2 ^ 32)
    (hdst : ∀ a ∈ dst, a.toNat < 2 ^ 32) (he : s.allocate i c desc cpl src dst = some s') : Inv s' := by
  have hsize := (h.tasks i c hc).size hpc
  unfold World.allocate at he
  dsimp only at he
  split at he
  · rename_i hnew
    split at he
    · rename_i desc cpl src dst
      cases he
      refine h.grow hc hpc hnew (fun s' hlive => ?_)
      refine ⟨fun ha => (by cases ha), fun _ k => ?_, fun _ => ⟨hsize.1, hsize.2, hsrc _ rfl, hdst _ rfl⟩,
        fun hl => (by cases hl), fun hl => (by cases hl), fun hl => (by cases hl)⟩
      rw [hlive]
      apply List.mem_append_left
      cases k <;> simp [granted, region, Addrs.at, Task.length]
    · cases he
      refine h.grow hc hpc hnew (fun s' _ => ?_)
      exact ⟨fun ha => (by cases ha), fun hh => (by cases hh), fun hh => (by cases hh), fun hl => (by cases hl),
        fun hl => (by cases hl), fun hl => (by cases hl)⟩
  · cases he

/-- **A free keeps the invariant when nothing of its call is outstanding.** -/
theorem Inv.free {s : World} {i : Nat} {c : Task} {ret : Int} {k : Kind} {todo : List Kind} (h : Inv s)
    (hc : s.calls[i]? = some c) (hout : s.outstanding i = false) :
    Inv ({ s with live := s.live.erase (region i c.addrs c.length k) }.setPc i c (.freeing ret todo)) := by
  have hstay : ∀ r ∈ s.live, r.owner ≠ i → r ∈ s.live.erase (region i c.addrs c.length k) := fun r hr hne =>
    (List.mem_erase_of_ne (fun heq => hne (congrArg Region.owner heq))).2 hr
  refine h.driver rfl (h.live.erase _) rfl ?_ ?_ ?_
  · exact ⟨fun ha => (by cases ha), fun hh => (by cases hh), fun hh => (by cases hh), fun hl => (by cases hl),
      fun hl => (by cases hl), fun hl => (by cases hl)⟩
  · intro j d hne hd
    exact (h.tasks j d hd).keep (fun r hr hj => hstay r hr (by rw [hj]; exact hne)) (fun _ => rfl)
      (fun _ => ⟨rfl, rfl, rfl, rfl⟩)
  · refine h.dev.keep rfl rfl rfl rfl (fun j hj a n ho => ?_)
    have hne : j ≠ i := by
      rintro rfl
      rw [hout] at hj
      cases hj
    refine ho.keep (fun d hd hr => ?_) (fun k hr => hstay _ hr hne) rfl
    exact rung_set { c with pc := .freeing ret todo } hc rfl (fun _ => ⟨rfl, rfl, rfl⟩) hd hr

theorem Inv.call {s : World} (h : Inv s) (cfg : RunConfig) : Inv (s.call cfg) := by
  have hold : ∀ (i : Nat) (c : Task), s.calls[i]? = some c → (s.call cfg).calls[i]? = some c := fun i c hc => by
    have hlt := (List.getElem?_eq_some_iff.1 hc).1
    exact (List.getElem?_append_left hlt).trans hc
  refine ⟨h.live, h.touched, ?_, ?_⟩
  · intro i c hc
    rcases Nat.lt_or_ge i s.calls.length with hlt | hge
    · rw [World.call, List.getElem?_append_left hlt] at hc
      have ht := h.tasks i c hc
      exact ⟨ht.size, ht.live, ht.fits, ht.desc, ht.lock, ht.bases⟩
    · rw [World.call, List.getElem?_append_right hge, List.getElem?_singleton] at hc
      split at hc
      · cases hc
        split
        · exact ⟨fun ha => (by cases ha), fun hh => (by cases hh), fun hh => (by cases hh), fun hl => (by cases hl),
            fun hl => (by cases hl), fun hl => (by cases hl)⟩
        · rename_i hok
          refine ⟨fun _ => ⟨fun h0 => hok (.inl h0), ?_⟩, fun hh => (by cases hh), fun hh => (by cases hh),
            fun hl => (by cases hl), fun hl => (by cases hl), fun hl => (by cases hl)⟩
          exact UInt32.not_lt.1 (fun hlt => hok (.inr (.inl hlt)))
      · cases hc
  · refine h.dev.keep rfl rfl rfl rfl (fun i _ a n ho => ho.keep (fun c hc hr => ?_) (fun _ hr => hr) rfl)
    exact ⟨c, hold i c hc, rfl, rfl, hr⟩

theorem Inv.other {s s' : World} {a : UInt64} {bs : List UInt8} (h : Inv s) (he : s.other a bs = some s') : Inv s' := by
  unfold World.other at he
  split at he
  · rename_i hgo
    cases he
    refine h.setMem (fun i a' n hr => read_write_apart _ ?_)
    have hb := (h.live.bounds _ hr).2
    have hw := within_base i a' n .desc
    have hself : Within a bs.length ⟨i, .desc, a, bs.length⟩ := ⟨Nat.le_refl _, Nat.le_refl _⟩
    exact apart_of_within hw hself hb hgo.1 (Or.symm (hgo.2 _ hr))
  · cases he

/-- **The driver's steps keep the invariant** under the condition on them. -/
theorem driverStep_ok {s s' : World} {i : Nat} {c : Task} {e : DriverEvent} (h : Inv s) (hc : s.calls[i]? = some c)
    (hg : Settled s (.driver i e)) (he : driverStep s i c e = some s') : Inv s' := by
  -- The cases follow the program counter: at each one only the events of its next statement are defined.
  unfold driverStep at he
  cases hpc : c.pc with
  | allocating =>
    rw [hpc] at he
    cases e with
    | alloc desc cpl src dst => exact h.allocate hc hpc hg.1 hg.2 he
    | _ => cases he
  | allocated =>
    rw [hpc] at he
    cases e with
    | go =>
      dsimp only at he
      split at he
      · rename_i hfree
        cases he
        exact h.lock hc hpc hfree
      · cases he
    | _ => cases he
  | programming k =>
    rw [hpc] at he
    cases e with
    | write lost =>
      dsimp only at he
      split at he
      · rename_i w hw
        cases he
        exact h.programWrite hc hpc hw lost
      · cases he
    | go =>
      dsimp only at he
      split at he
      · rename_i hk
        cases he
        exact h.moveOn hc (by rw [hpc]; exact .loop rfl hk rfl rfl) (.inl rfl)
      · cases he
    | _ => cases he
  | filling iter =>
    rw [hpc] at he
    cases e with
    | go =>
      dsimp only at he
      split at he
      · cases he
        exact (h.fill hc (by rw [hpc]; rfl)).moveOn hc (by rw [hpc]; exact .loop rfl rfl rfl rfl) (.inl rfl)
      · cases he
        exact h.moveOn hc (by rw [hpc]; exact .loop rfl rfl rfl rfl) (.inl rfl)
    | _ => cases he
  | polling iter tries =>
    rw [hpc] at he
    cases e with
    | poll answered =>
      dsimp only at he
      split at he
      · obtain ⟨v, -, hv⟩ := Option.map_eq_some_iff.1 he
        rw [← hv]
        refine h.moveOn hc ?_ (.inl rfl)
        rw [hpc]
        split
        · exact .loop rfl rfl rfl rfl
        · exact .loop rfl rfl rfl rfl
      · cases he
    | go =>
      dsimp only at he
      split at he
      · cases he
        exact h.moveOn hc (by rw [hpc]; exact .loop rfl rfl rfl rfl) (.inl rfl)
      · cases he
    | _ => cases he
  | ringing iter =>
    rw [hpc] at he
    cases e with
    | write lost =>
      cases he
      exact h.ring hc hpc lost (fun hlost => hg c hc (by rw [hpc]; rfl) hlost) _
    | _ => cases he
  | waiting iter =>
    rw [hpc] at he
    cases e with
    | wake =>
      dsimp only at he
      split at he
      · cases he
      · cases he
        exact h.moveOn hc (by rw [hpc]; exact .loop rfl rfl rfl rfl) (.inl rfl)
    | timeout =>
      cases he
      exact h.moveOn hc (by rw [hpc]; exact .loop rfl rfl rfl rfl) (.inl rfl)
    | _ => cases he
  | verifying iter =>
    rw [hpc] at he
    cases e with
    | go =>
      cases he
      refine h.moveOn hc ?_ (.inl rfl)
      rw [hpc]
      split
      · exact .loop rfl rfl rfl rfl
      · exact .loop rfl rfl rfl rfl
    | _ => cases he
  | unlocking ret =>
    rw [hpc] at he
    cases e with
    | go =>
      cases he
      refine h.moveOn hc ?_ (.inr ⟨by rw [hpc]; rfl, rfl⟩)
      exact ⟨by simp, fun hh => (by cases hh), fun hl => (by cases hl), fun _ => rfl⟩
    | _ => cases he
  | freeing ret todo =>
    rw [hpc] at he
    cases e with
    | go =>
      cases todo with
      | nil =>
        cases he
        refine h.moveOn hc ?_ (.inl rfl)
        exact ⟨by simp, fun hh => (by cases hh), fun hl => (by cases hl), fun _ => rfl⟩
      | cons k todo =>
        cases he
        exact h.free hc (hg c hc (by rw [hpc]; rfl))
    | _ => cases todo <;> cases he
  | returned ret =>
    rw [hpc] at he
    cases e <;> cases he

theorem worldStep_ok {s s' : World} {e : Event} (h : Inv s) (hg : Settled s e) (he : worldStep s e = some s') :
    Inv s' := by
  cases e with
  | call cfg =>
    cases he
    exact h.call cfg
  | driver i e =>
    simp only [worldStep] at he
    split at he
    · cases he
    · rename_i c hc
      exact driverStep_ok h hc hg he
  | sim e => exact h.untouched (simStep_keeps he) (simStep_ok h.placed h.dev he)
  | serve ok => exact serve_ok h he
  | other a bs => exact h.other he

theorem inv_init (mem : BitVec 64 → UInt8) : Inv { mem } :=
  ⟨⟨fun _ hr => (by cases hr), List.Pairwise.nil⟩, fun _ ht => (by cases ht), fun _ _ hc => (by simp at hc),
    ⟨trivial, trivial, fun _ hr => (by cases hr), rfl⟩⟩

/-- **Every access lies in buffers not yet freed**, in every run whose allocations, doorbells and frees meet the
condition. -/
theorem touches_inside_of_settled (mem : BitVec 64 → UInt8) (es : List Event) (s : World)
    (hg : Along worldStep Settled { mem } es) (h : run worldStep { mem } es = some s) :
    ∀ t ∈ s.touches, t.inside = true :=
  (run_invariant_along (fun _ _ _ hi hg he => worldStep_ok hi hg he) es _ s (inv_init mem) hg h).touched

/-- The driver up to its first doorbell, with each write dealt with before the next. -/
def sampleStart : List Event :=
  ([.call { length := 64, iterations := 1 },
    .driver 0 (.alloc (some 0x1000) (some 0x2000) (some 0x3000) (some 0x4000)), .driver 0 .go] : List Event) ++
    (List.replicate 6 [Event.driver 0 (.write false), .sim .takeWrite]).flatten ++
    ([.driver 0 .go, .driver 0 .go, .driver 0 (.poll true), .driver 0 (.write false), .sim .takeWrite] : List Event)

def sampleDescriptor : List Event :=
  [.sim (.request true), .serve true, .sim (.chunk 0 16 (fun i => UInt8.ofNat (0xa0 + (i &&& 0x3f))) true), .serve true,
   .sim (.moved true), .sim (.request true), .serve true]

/-- A whole call: both descriptors, the interrupt, the comparison, and the four frees. -/
theorem touches_inside_of_settled_call :
    let es : List Event := sampleStart ++ sampleDescriptor ++ sampleDescriptor ++
      ([.serve true, .driver 0 .wake] : List Event) ++ List.replicate 8 (Event.driver 0 .go)
    ∃ s, run worldStep { mem := fun _ => 0 } es = some s ∧ s.live = [] ∧ s.touches.length = 6 ∧
      s.calls.map (·.pc) = [.returned 0] ∧ ∀ t ∈ s.touches, t.inside = true := by
  intro es
  have hrun : (run worldStep { mem := fun _ => 0 } es).map (fun s => (s.live, s.touches.length, s.calls.map (·.pc))) =
      some ([], 6, [.returned 0]) := by decide +kernel
  obtain ⟨s, hs, heq⟩ := Option.map_eq_some_iff.1 hrun
  have hlive : s.live = [] := congrArg Prod.fst heq
  have hlen : s.touches.length = 6 := congrArg (fun p => p.2.1) heq
  have hpcs : s.calls.map (·.pc) = [.returned 0] := congrArg (fun p => p.2.2) heq
  exact ⟨s, hs, hlive, hlen, hpcs, touches_inside_of_settled _ es s (by decide +kernel) hs⟩

/-- The first descriptor is fetched, the driver's wait times out and its four buffers are freed; then the simulator asks
for the data of a buffer that is no longer there. -/
theorem not_touches_inside :
    ¬ ∀ (mem : BitVec 64 → UInt8) (es : List Event) (s : World), run worldStep { mem } es = some s →
      ∀ t ∈ s.touches, t.inside = true := by
  intro hall
  let es : List Event := sampleStart ++ ([.sim (.request true), .serve true, .driver 0 .timeout] : List Event) ++
    List.replicate 5 (Event.driver 0 .go) ++ ([.sim (.chunk 0 16 (fun _ => 0) true), .serve true] : List Event)
  have hrun : (run worldStep { mem := fun _ => 0 } es).map (fun s => (s.live, s.touches)) =
      some ([], [⟨0x1000, 32, true⟩, ⟨0x3000, 64, false⟩]) := by decide +kernel
  obtain ⟨s, hs, heq⟩ := Option.map_eq_some_iff.1 hrun
  have htouches : s.touches = [⟨0x1000, 32, true⟩, ⟨0x3000, 64, false⟩] := congrArg Prod.snd heq
  have hinside := hall _ es s hs ⟨0x3000, 64, false⟩ (by rw [htouches]; simp)
  cases hinside

end Driver
end Vip
