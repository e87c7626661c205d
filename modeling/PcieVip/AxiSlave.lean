import PcieVip.AlexTop
import PcieVip.LibServe
/-!
# AxiSlave — `axi_lite_slave_model`, clock by clock

The five channels with their pending registers.  Each channel is a place for one value: an address and a datum wait
for each other, a response waits for its ready.  Under any pins the writes that are executed are the accepted
addresses paired with the accepted data, in order and one at a time, and the registers are what these writes make of
the reset values (`axi_linear`).
-/
namespace Vip
namespace Alex

open Serve Word

/-! ## The clocked process -/

structure Axi where
  awPending        : Bool := false
  awaddr           : BitVec 64 := 0
  wPending         : Bool := false
  wdata            : BitVec 32 := 0
  wstrb            : BitVec 4 := 0
  bresp            : BitVec 2 := axilOkay
  bvalid           : Bool := false
  rdata            : BitVec 32 := 0
  rresp            : BitVec 2 := axilOkay
  rvalid           : Bool := false
  slave            : Slave := {}
  dmaDoorbellPulse : Bool := false
  doorbellPulse    : Bool := false
  deriving DecidableEq, Repr

structure Axi.Pins where
  awaddr  : BitVec 64 := 0
  awvalid : Bool := false
  wdata   : BitVec 32 := 0
  wstrb   : BitVec 4 := 0
  wvalid  : Bool := false
  bready  : Bool := false
  araddr  : BitVec 64 := 0
  arvalid : Bool := false
  rready  : Bool := false
  deriving DecidableEq, Repr

namespace Axi

def awready (s : Axi) : Bool := !s.awPending && !s.bvalid
def wready (s : Axi) : Bool := !s.wPending && !s.bvalid
def arready (s : Axi) : Bool := !s.rvalid

def executes (s : Axi) : Bool := s.awPending && s.wPending && !s.bvalid

/-- A clock edge with the reset low.  Of two assignments to one register the later one in the text counts; the pulse of
the tail register is never taken back. -/
def clock (s : Axi) (i : Pins) : Axi :=
  let aw := i.awvalid && s.awready
  let w := i.wvalid && s.wready
  let x := s.slave.axiWrite s.awaddr s.wdata s.wstrb
  let ar := i.arvalid && s.arready
  let rd := s.slave.axiRead i.araddr
  { awPending := if s.executes then false else if aw then true else s.awPending
    awaddr := if aw then i.awaddr else s.awaddr
    wPending := if s.executes then false else if w then true else s.wPending
    wdata := if w then i.wdata else s.wdata
    wstrb := if w then i.wstrb else s.wstrb
    bvalid := if s.executes then true else if s.bvalid && i.bready then false else s.bvalid
    bresp := if s.executes then x.bresp else s.bresp
    rvalid := if s.rvalid && i.rready then false else if ar then true else s.rvalid
    rdata := if ar then rd.1 else s.rdata
    rresp := if ar then rd.2 else s.rresp
    slave := if s.executes then x.slave else s.slave
    dmaDoorbellPulse := s.dmaDoorbellPulse || (s.executes && dwAt (s.awaddr.toNat % 2 ^ 13) == some .descTail)
    doorbellPulse := s.executes && x.pulse }

def edge (s : Axi) (rst : Bool) (i : Pins) : Axi := if rst then {} else s.clock i

/-! ## What is seen on the bus -/

abbrev Write := BitVec 64 × (BitVec 32 × BitVec 4)

/-- What happens in a cycle: the handshakes with what they carry, the write that is executed, and for a read address the
registers as they are then. -/
structure Obs where
  aw   : Option (BitVec 64)
  w    : Option (BitVec 32 × BitVec 4)
  exec : Option Write
  b    : Option (BitVec 2)
  ar   : Option (BitVec 64 × Slave)
  r    : Option (BitVec 32 × BitVec 2)

def obs (s : Axi) (i : Pins) : Obs where
  aw := if i.awvalid && s.awready then some i.awaddr else none
  w := if i.wvalid && s.wready then some (i.wdata, i.wstrb) else none
  exec := if s.executes then some (s.awaddr, s.wdata, s.wstrb) else none
  b := if s.bvalid && i.bready then some s.bresp else none
  ar := if i.arvalid && s.arready then some (i.araddr, s.slave) else none
  r := if s.rvalid && i.rready then some (s.rdata, s.rresp) else none

def step (s : Axi) (i : Pins) : Axi × Obs := (s.clock i, s.obs i)

/-- The registers as a machine that takes writes and gives responses. -/
def respond (r : Slave) (x : Write) : Slave × BitVec 2 :=
  let w := r.axiWrite x.1 x.2.1 x.2.2
  (w.slave, w.bresp)

/-! ## Each channel holds one value -/

def awHeld (s : Axi) : Option (BitVec 64) := if s.awPending then some s.awaddr else none
def wHeld (s : Axi) : Option (BitVec 32 × BitVec 4) := if s.wPending then some (s.wdata, s.wstrb) else none
def bHeld (s : Axi) : Option (BitVec 2) := if s.bvalid then some s.bresp else none
def rHeld (s : Axi) : Option (BitVec 32 × BitVec 2) := if s.rvalid then some (s.rdata, s.rresp) else none

section Step

variable (s : Axi) (i : Pins)

theorem awHeld_clock : (s.clock i).awHeld = hold s.awHeld (s.obs i).aw s.executes := by
  obtain ⟨aw, _, w, _, _, _, b, _⟩ := s
  obtain ⟨_, valid, _⟩ := i
  cases aw <;> cases w <;> cases b <;> cases valid <;> rfl

theorem wHeld_clock : (s.clock i).wHeld = hold s.wHeld (s.obs i).w s.executes := by
  obtain ⟨aw, _, w, _, _, _, b, _⟩ := s
  obtain ⟨_, _, _, _, valid, _⟩ := i
  cases aw <;> cases w <;> cases b <;> cases valid <;> rfl

theorem bHeld_clock :
    (s.clock i).bHeld = hold s.bHeld ((s.obs i).exec.map (fun x => (respond s.slave x).2)) (s.bvalid && i.bready) := by
  obtain ⟨aw, _, w, _, _, _, b, _⟩ := s
  obtain ⟨_, _, _, _, _, ready, _⟩ := i
  cases aw <;> cases w <;> cases b <;> cases ready <;> rfl

theorem rHeld_clock :
    (s.clock i).rHeld = hold s.rHeld ((s.obs i).ar.map (fun x => x.2.axiRead x.1)) (s.rvalid && i.rready) := by
  obtain ⟨_, _, _, _, _, _, _, _, _, r, _⟩ := s
  obtain ⟨_, _, _, _, _, _, _, valid, ready⟩ := i
  cases r <;> cases valid <;> cases ready <;> rfl

theorem free_of_obs :
    ((s.obs i).aw ≠ none → s.awHeld = none) ∧ ((s.obs i).w ≠ none → s.wHeld = none) ∧
      ((s.obs i).exec ≠ none → s.bHeld = none) ∧ ((s.obs i).ar ≠ none → s.rHeld = none) := by
  obtain ⟨aw, _, w, _, _, _, b, _, _, r, _⟩ := s
  refine ⟨?_, ?_, ?_, ?_⟩
  · cases aw <;> simp [obs, awHeld, awready]
  · cases w <;> simp [obs, wHeld, wready]
  · cases b <;> simp [obs, bHeld, executes]
  · cases r <;> simp [obs, rHeld, arready]

theorem exec_held :
    (if s.executes then s.awHeld else none).toList = ((s.obs i).exec.toList).map Prod.fst ∧
      (if s.executes then s.wHeld else none).toList = ((s.obs i).exec.toList).map Prod.snd := by
  obtain ⟨aw, _, w, _, _, _, b, _⟩ := s
  cases aw <;> cases w <;> cases b <;> exact ⟨rfl, rfl⟩

theorem b_held : (if s.bvalid && i.bready then s.bHeld else none) = (s.obs i).b := by
  simp only [obs, bHeld]
  cases s.bvalid <;> simp

theorem r_held : (if s.rvalid && i.rready then s.rHeld else none) = (s.obs i).r := by
  simp only [obs, rHeld]
  cases s.rvalid <;> simp

theorem slave_clock : (s.clock i).slave = after respond s.slave (s.obs i).exec.toList := by
  simp only [clock, obs]
  cases s.executes <;> rfl

end Step

/-! ## CSTS follows CC -/

/-- Bit 0 of CC, in all of CSTS. -/
def Ready (r : Slave) : Prop := r.csts = (BitVec.ofBool (r.cc.getLsbD 0)).setWidth 32

theorem getLsbD_applyWstrb_zero (old new : BitVec 32) (strb : BitVec 4) :
    (applyWstrb old new strb).getLsbD 0 = if strb.getLsbD 0 then new.getLsbD 0 else old.getLsbD 0 := by
  have hbit : ∀ x : BitVec 32, (byteAt x 0).getLsbD 0 = x.getLsbD 0 := by
    intro x
    simp [byteAt]
  rw [← hbit, byteAt_applyWstrb _ _ _ (by decide)]
  split
  · exact hbit new
  · exact hbit old

theorem ready_respond (r : Slave) (x : Write) (h : Ready r) : Ready (respond r x).1 := by
  unfold respond Slave.axiWrite
  dsimp only
  split
  · rename_i d _
    split
    · -- only the write to CC touches either
      cases d
      case cc =>
        change (BitVec.ofBool _).setWidth 32 = (BitVec.ofBool ((applyWstrb _ _ _).getLsbD 0)).setWidth 32
        rw [getLsbD_applyWstrb_zero]
      all_goals first | exact h | contradiction
    · exact h
  · exact h

theorem ready_after (xs : List Write) : Ready (after respond {} xs) :=
  after_invariant (fun r x h => ready_respond r x h) xs {} rfl

/-! ## A DW and its writes -/

/-- What the writes to the address of a DW make of a value. -/
def stored (d : Dw) (v : BitVec 32) (xs : List Write) : BitVec 32 :=
  xs.foldl (fun v x => if dwAt (x.1.toNat % 2 ^ 13) = some d then applyWstrb v x.2.1 x.2.2 else v) v

theorem word_store_same (r : Slave) {d : Dw} (hv : d.isValidWrite = true) (hbell : d ≠ .doorbell)
    (wdata : BitVec 32) (wstrb : BitVec 4) :
    (r.store d wdata wstrb).word d = applyWstrb (r.word d) wdata wstrb := by
  by_cases hp : d.plain = true
  · rw [store_plain r hp, word_put r (Dw.valid_of_plain hp).2.2.1, if_pos rfl]
  · cases d with
    | cc       => rfl
    | doorbell => exact absurd rfl hbell
    | cap      => cases hv
    | csts     => cases hv
    | _        => exact absurd rfl hp

/-- A write leaves the other DWs, but the one to CC takes CSTS along. -/
theorem word_store_other (r : Slave) {d e : Dw} (hv : d.isValidWrite = true) (hed : e ≠ d)
    (hcc : ¬ (e = .csts ∧ d = .cc)) (wdata : BitVec 32) (wstrb : BitVec 4) :
    (r.store d wdata wstrb).word e = r.word e := by
  by_cases hp : d.plain = true
  · rw [store_plain r hp, word_put r (Dw.valid_of_plain hp).2.2.1, if_neg hed]
  · cases d with
    | cc       => cases e <;> first | rfl | exact absurd rfl hed | exact absurd ⟨rfl, rfl⟩ hcc
    | doorbell => exact (word_put r (d := .doorbell) (by decide) wdata e).trans (if_neg hed)
    | cap      => cases hv
    | csts     => cases hv
    | _        => exact absurd rfl hp

theorem word_respond (r : Slave) (x : Write) {d : Dw} (hd : d.isValidWrite = true) (hbell : d ≠ .doorbell) :
    (respond r x).1.word d = stored d (r.word d) [x] := by
  change (r.axiWrite x.1 x.2.1 x.2.2).slave.word d =
    if dwAt (x.1.toNat % 2 ^ 13) = some d then applyWstrb (r.word d) x.2.1 x.2.2 else r.word d
  unfold Slave.axiWrite
  cases hat : dwAt (x.1.toNat % 2 ^ 13) with
  | none   => rfl
  | some e =>
    by_cases he : e.isValidWrite = true
    · simp only [he, if_true, Option.some.injEq]
      by_cases hde : e = d
      · subst hde
        rw [if_pos rfl, word_store_same r hd hbell]
      · rw [if_neg hde]
        refine word_store_other r he (Ne.symm hde) ?_ _ _
        rintro ⟨rfl, -⟩
        cases hd
    · have hde : ¬ some e = some d := by
        rintro ⟨rfl⟩
        exact he hd
      simp only [he, Bool.false_eq_true, if_false, if_neg hde]

/-- **A DW holds what the writes to its address left of it.** -/
theorem word_after {d : Dw} (hd : d.isValidWrite = true) (hbell : d ≠ .doorbell) : ∀ (xs : List Write) (r : Slave),
    (after respond r xs).word d = stored d (r.word d) xs
  | [], _      => rfl
  | x :: xs, r => by
    rw [after, word_after hd hbell xs, word_respond r x hd hbell]
    rfl

theorem axiRead_word (r : Slave) {a : BitVec 64} {d : Dw} (hd : dwAt (a.toNat % 2 ^ 13) = some d)
    (hr : d.isValidRead = true) : r.axiRead a = (r.word d, axilOkay) := by
  simp only [Slave.axiRead, hd, hr, if_true]

/-! ## Runs -/

def aws (o : List Obs) : List (BitVec 64) := o.filterMap Obs.aw
def ws (o : List Obs) : List (BitVec 32 × BitVec 4) := o.filterMap Obs.w
def execs (o : List Obs) : List Write := o.filterMap Obs.exec
def bs (o : List Obs) : List (BitVec 2) := o.filterMap Obs.b
def rs (o : List Obs) : List (BitVec 32 × BitVec 2) := o.filterMap Obs.r

/-- What the reads return, from the registers at their address handshakes. -/
def answers (o : List Obs) : List (BitVec 32 × BitVec 2) := (o.filterMap Obs.ar).map (fun x => x.2.axiRead x.1)

structure Kept (o : List Obs) (s : Axi) : Prop where
  aws   : aws o = (execs o).map Prod.fst ++ s.awHeld.toList
  ws    : ws o = (execs o).map Prod.snd ++ s.wHeld.toList
  bs    : outputs respond {} (execs o) = bs o ++ s.bHeld.toList
  rs    : answers o = rs o ++ s.rHeld.toList
  slave : s.slave = after respond {} (execs o)
  seen  : ∀ n a r, (o[n]?).bind Obs.ar = some (a, r) → r = after respond {} (execs (o.take n))
  apart : s.bHeld ≠ none → s.awHeld = none ∧ s.wHeld = none

theorem filterMap_concat {α β : Type} (f : α → Option β) (l : List α) (a : α) :
    (l ++ [a]).filterMap f = l.filterMap f ++ (f a).toList := by
  rw [List.filterMap_append]
  cases h : f a <;> simp [h]

theorem outputs_exec (r : Slave) (e : Option Write) :
    outputs respond r e.toList = (e.map (fun x => (respond r x).2)).toList := by
  cases e <;> rfl

theorem apart_clock (s : Axi) (i : Pins) (h : s.bHeld ≠ none → s.awHeld = none ∧ s.wHeld = none) :
    (s.clock i).bHeld ≠ none → (s.clock i).awHeld = none ∧ (s.clock i).wHeld = none := by
  obtain ⟨aw, _, w, _, _, _, b, _⟩ := s
  obtain ⟨_, awvalid, _, _, wvalid, bready, _⟩ := i
  have hbad : b = true → aw = false ∧ w = false := by
    rintro rfl
    obtain ⟨ha, hw⟩ := h nofun
    constructor
    · cases aw
      · rfl
      · cases ha
    · cases w
      · rfl
      · cases hw
  cases b
  · cases aw <;> cases w <;> first | exact fun _ => ⟨rfl, rfl⟩ | exact fun hb => absurd rfl hb
  · obtain ⟨rfl, rfl⟩ := hbad rfl
    cases bready <;> cases awvalid <;> cases wvalid <;> exact fun _ => ⟨rfl, rfl⟩

theorem seen_clock {o : List Obs} {s : Axi} (hslave : s.slave = after respond {} (execs o))
    (h : ∀ n a r, (o[n]?).bind Obs.ar = some (a, r) → r = after respond {} (execs (o.take n))) (i : Pins) :
    ∀ n a r, ((o ++ [s.obs i])[n]?).bind Obs.ar = some (a, r) →
      r = after respond {} (execs ((o ++ [s.obs i]).take n)) := by
  intro n a r har
  rcases Nat.lt_trichotomy n o.length with hn | rfl | hn
  · rw [List.getElem?_append_left hn] at har
    rw [List.take_append_of_le_length (Nat.le_of_lt hn)]
    exact h n a r har
  · rw [List.getElem?_concat_length, Option.bind_some] at har
    rw [List.take_left, ← hslave]
    simp only [obs] at har
    split at har
    · cases har
      rfl
    · cases har
  · rw [List.getElem?_eq_none (by rw [List.length_append, List.length_singleton]; exact hn)] at har
    cases har

/-- **One clock edge keeps the trace and the state together.** -/
theorem Kept.clock {o : List Obs} {s : Axi} (h : Kept o s) (i : Pins) : Kept (o ++ [s.obs i]) (s.clock i) := by
  obtain ⟨hfaw, hfw, hfb, hfr⟩ := s.free_of_obs i
  obtain ⟨heaw, hew⟩ := s.exec_held i
  have hexecs : execs (o ++ [s.obs i]) = execs o ++ (s.obs i).exec.toList := filterMap_concat _ _ _
  refine ⟨?_, ?_, ?_, ?_, ?_, seen_clock h.slave h.seen i, apart_clock s i h.apart⟩
  · rw [hexecs, List.map_append, ← heaw, awHeld_clock, ← append_hold h.aws hfaw]
    exact filterMap_concat _ _ _
  · rw [hexecs, List.map_append, ← hew, wHeld_clock, ← append_hold h.ws hfw]
    exact filterMap_concat _ _ _
  · have hfree : (s.obs i).exec.map (fun x => (respond s.slave x).2) ≠ none → s.bHeld = none := by
      intro hne
      refine hfb (fun he => hne ?_)
      rw [he]
      rfl
    have hbs : Axi.bs (o ++ [s.obs i]) = Axi.bs o ++ (if s.bvalid && i.bready then s.bHeld else none).toList := by
      rw [b_held]
      exact filterMap_concat _ _ _
    rw [hexecs, outputs_append, ← h.slave, outputs_exec, hbs, bHeld_clock, append_hold h.bs hfree]
  · have hfree : (s.obs i).ar.map (fun x => x.2.axiRead x.1) ≠ none → s.rHeld = none := by
      intro hne
      refine hfr (fun he => hne ?_)
      rw [he]
      rfl
    have hrs : Axi.rs (o ++ [s.obs i]) = Axi.rs o ++ (if s.rvalid && i.rready then s.rHeld else none).toList := by
      rw [r_held]
      exact filterMap_concat _ _ _
    have hars : answers (o ++ [s.obs i]) = answers o ++ ((s.obs i).ar.map (fun x => x.2.axiRead x.1)).toList := by
      unfold answers
      rw [filterMap_concat, List.map_append]
      cases (s.obs i).ar <;> rfl
    rw [hars, hrs, rHeld_clock, append_hold h.rs hfree]
  · rw [hexecs, after_append, ← h.slave, slave_clock]

/-- The bus seen as one write after the other, and reads between them. -/
structure Linear (o : List Obs) (s : Axi) : Prop where
  /-- The `k`-th executed write is the `k`-th address with the `k`-th data and strobe. -/
  paired    : execs o <+: (aws o).zip (ws o)
  responded : (bs o).length ≤ (execs o).length
  executed  : (execs o).length ≤ (aws o).length ∧ (execs o).length ≤ (ws o).length
  accepted  : (aws o).length ≤ (bs o).length + 1 ∧ (ws o).length ≤ (bs o).length + 1
  /-- What has both its parts is executed at the next edge. -/
  next      : ∀ i, (execs o).length < (aws o).length → (execs o).length < (ws o).length →
    (s.obs i).exec = ((aws o).zip (ws o))[(execs o).length]?
  answered  : bs o <+: outputs respond {} (execs o)
  /-- What was executed and not answered is being answered. -/
  bOffered  : (bs o).length < (execs o).length →
    s.bvalid = true ∧ (outputs respond {} (execs o))[(bs o).length]? = some s.bresp
  bStable   : ∀ i, s.bvalid = true → i.bready = false → (s.clock i).bvalid = true ∧ (s.clock i).bresp = s.bresp
  rStable   : ∀ i, s.rvalid = true → i.rready = false →
    (s.clock i).rvalid = true ∧ (s.clock i).rdata = s.rdata ∧ (s.clock i).rresp = s.rresp
  registers : s.slave = after respond {} (execs o)
  /-- A writable DW is the fold of the writes to its address, with `apply_wstrb`; the doorbell takes its data whole. -/
  words     : ∀ d, d.isValidWrite = true → d ≠ .doorbell → s.slave.word d = stored d (({} : Slave).word d) (execs o)
  /-- A read is answered with the DW as the writes executed before its address handshake left it. -/
  readWords : ∀ n a r d, (o[n]?).bind Obs.ar = some (a, r) → dwAt (a.toNat % 2 ^ 13) = some d → d.isValidRead = true →
    r.axiRead a = (r.word d, axilOkay) ∧ Ready r ∧
      ∀ e, e.isValidWrite = true → e ≠ .doorbell → r.word e = stored e (({} : Slave).word e) (execs (o.take n))
  reads     : rs o <+: answers o
  rOffered  : (rs o).length < (answers o).length →
    s.rvalid = true ∧ (answers o)[(rs o).length]? = some (s.rdata, s.rresp)
  csts      : Ready s.slave

theorem bStable (s : Axi) (i : Pins) (hb : s.bvalid = true) (hr : i.bready = false) :
    (s.clock i).bvalid = true ∧ (s.clock i).bresp = s.bresp := by
  simp [clock, executes, hb, hr]

theorem rStable (s : Axi) (i : Pins) (hb : s.rvalid = true) (hr : i.rready = false) :
    (s.clock i).rvalid = true ∧ (s.clock i).rdata = s.rdata ∧ (s.clock i).rresp = s.rresp := by
  simp [clock, arready, hb, hr]

theorem held_of_length_lt {α : Type} {l m : List α} {held : Option α} (h : m = l ++ held.toList)
    (hlt : l.length < m.length) : ∃ a, held = some a ∧ m[l.length]? = some a := by
  subst h
  cases held with
  | none   => simp at hlt
  | some a => exact ⟨a, rfl, by simp⟩

theorem length_held {α : Type} {l m : List α} {held : Option α} (h : m = l ++ held.toList) :
    l.length ≤ m.length ∧ m.length ≤ l.length + 1 ∧ (held = none → m.length = l.length) := by
  subst h
  cases held <;> simp

theorem bHeld_some {s : Axi} {v : BitVec 2} (h : s.bHeld = some v) : s.bvalid = true ∧ s.bresp = v := by
  unfold bHeld at h
  split at h
  · exact ⟨‹_›, Option.some.inj h⟩
  · cases h

theorem rHeld_some {s : Axi} {v : BitVec 32 × BitVec 2} (h : s.rHeld = some v) :
    s.rvalid = true ∧ (s.rdata, s.rresp) = v := by
  unfold rHeld at h
  split at h
  · exact ⟨‹_›, Option.some.inj h⟩
  · cases h

theorem exec_of_held {s : Axi} (i : Pins) {a : BitVec 64} {x : BitVec 32 × BitVec 4} (ha : s.awHeld = some a)
    (hx : s.wHeld = some x) (hb : s.bHeld = none) : (s.obs i).exec = some (a, x) := by
  obtain ⟨aw, _, w, _, _, _, b, _⟩ := s
  cases aw with
  | false => cases ha
  | true  =>
    cases w with
    | false => cases hx
    | true  =>
      cases b with
      | true  => cases hb
      | false =>
        cases ha
        cases hx
        rfl

theorem Kept.linear {o : List Obs} {s : Axi} (h : Kept o s) : Linear o s := by
  have hzip : (Axi.aws o).zip (Axi.ws o) = execs o ++ s.awHeld.toList.zip s.wHeld.toList := by
    rw [h.aws, h.ws, List.zip_append (by simp), ← List.zip_of_prod rfl rfl]
  obtain ⟨haw, haw', hawn⟩ := length_held h.aws
  obtain ⟨hw, hw', hwn⟩ := length_held h.ws
  obtain ⟨hb, hb', hbn⟩ := length_held h.bs
  rw [List.length_map] at haw haw' hawn hw hw' hwn
  have hlen := length_outputs respond {} (execs o)
  rw [hlen] at hb hb' hbn
  refine ⟨⟨_, hzip.symm⟩, hb, ⟨haw, hw⟩, ?_, ?_, ⟨_, h.bs.symm⟩, ?_, s.bStable, s.rStable, h.slave,
    fun d hd hbell => ?_, fun n a r d har hd hr => ?_, ⟨_, h.rs.symm⟩, ?_, h.slave ▸ ready_after (execs o)⟩
  · by_cases hheld : s.bHeld = none
    · have := hbn hheld
      omega
    · obtain ⟨ha, hx⟩ := h.apart hheld
      have := hawn ha
      have := hwn hx
      omega
  · intro i hlta hltw
    obtain ⟨a, ha, -⟩ := held_of_length_lt h.aws (by rwa [List.length_map])
    obtain ⟨x, hx, -⟩ := held_of_length_lt h.ws (by rwa [List.length_map])
    have hfree : s.bHeld = none := by
      refine Classical.byContradiction (fun hne => ?_)
      rw [(h.apart hne).1] at ha
      cases ha
    rw [exec_of_held i ha hx hfree, hzip, ha, hx]
    simp
  · intro hlt
    obtain ⟨v, hv, hget⟩ := held_of_length_lt h.bs (by rwa [hlen])
    obtain ⟨hvalid, rfl⟩ := bHeld_some hv
    exact ⟨hvalid, hget⟩
  · rw [h.slave]
    exact word_after hd hbell (execs o) {}
  · have hseen := h.seen n a r har
    refine ⟨axiRead_word r hd hr, hseen ▸ ready_after _, fun e he hbell => ?_⟩
    rw [hseen]
    exact word_after he hbell _ {}
  · intro hlt
    obtain ⟨v, hv, hget⟩ := held_of_length_lt h.rs hlt
    obtain ⟨hvalid, rfl⟩ := rHeld_some hv
    exact ⟨hvalid, hget⟩

/-- **The slave linearises its bus**: after a reset, whatever the pins do while it is low. -/
theorem axi_linear (s₀ : Axi) (i₀ : Pins) (is : List Pins) :
    Linear (outputs step (s₀.edge true i₀) is) (after step (s₀.edge true i₀) is) := by
  have hstart : s₀.edge true i₀ = {} := rfl
  have hkept : Kept (outputs step {} is) (after step {} is) := by
    have hnil : Kept [] {} :=
      ⟨rfl, rfl, rfl, rfl, rfl, fun _ _ _ har => (by rw [List.getElem?_nil] at har; cases har), fun h => absurd rfl h⟩
    exact trace_invariant (I := Kept) (fun _ _ i h => h.clock i) is [] {} hnil
  rw [hstart]
  exact hkept.linear

end Axi
end Alex
end Vip
