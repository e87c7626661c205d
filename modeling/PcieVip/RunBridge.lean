import PcieVip.BridgeAnswers
/-!
# RunBridge — the endpoint behind the cocotb bridge (`rtl/alex/run_bridge.py`)

`run_bridge.py` gives the bridge a register file and answers a write to the doorbell with a task, `dma_demo`: read a
command from the submission queue, write a completion to the completion queue, send the interrupt.  The two MMIO
callbacks do not await, so they run within the step that receives the message; the two DMA callbacks sleep once.  Any
number of demo tasks run at once.
-/
namespace Vip
namespace Bridge

open Ics (MessageType)
open Bytes Log Run

/-! ## The register file -/

/-- `REGS`, `ASQ` and `ACQ`. -/
structure Regs where
  regs : Int → Option Nat :=
    fun a => if a = 0 then some 1 else if a = 0x14 then some 0 else if a = 0x1c then some 0 else none
  asq  : Nat := 0
  acq  : Nat := 0

def Regs.put (r : Regs) (address : Int) (value : Nat) : Regs :=
  { r with regs := fun a => if a = address then some value else r.regs a }

def zeroRead (r : Regs) (address length : Int) : List UInt8 := leBytes length.toNat ((r.regs address).getD 0)

/-- The register file after the write, and whether it starts a `dma_demo`. -/
def acceptWrite (r : Regs) (address : Int) (payload : List UInt8) : Regs × Bool :=
  let value := leNat payload
  if address = 0x14 then ((r.put address value).put 0x1c (if value % 2 = 1 then 1 else 0), false)
  else if (r.regs address).isSome then (r.put address value, false)
  else if address = 0x28 then ({ r with asq := value }, false)
  else if address = 0x30 then ({ r with acq := value }, false)
  else (r, address = 0x1000)

/-! ## dma_demo -/

/-- The numbers are those of the two calls in the bridge. -/
inductive DemoPc where
  | created
  | reading (i : Nat)
  | writing (i j : Nat)
  | signalling
  | ended
  deriving DecidableEq, Repr

/-- The interrupt that a demo sent: its two calls and its place among what was written. -/
structure Signal where
  read  : Nat
  write : Nat
  place : Nat
  deriving DecidableEq, Repr

structure Demo where
  pc     : DemoPc := .created
  -- history
  signal : Option Signal := none
  deriving DecidableEq, Repr

def Demo.fresh : Demo := {}

structure Rig where
  bridge : State := {}
  regs   : Regs := {}
  demos  : List Demo := []

def completion : List UInt8 := (List.range 16).map (fun i => UInt8.ofNat (0xc0 + i))

def readArgs (r : Regs) : Args := { msgType := 7, address := r.asq, transferLen := 64 }

def writeArgs (r : Regs) : Args := { msgType := 9, address := r.acq, payload := completion, transferLen := 16 }

/-- `Header(MSIX, address=0, transfer_len=0).pack()`. -/
def msix : Frame := ⟨Qemu.micsEncodeHeader ⟨11, 0, 0, 0, 0, 0, 0, 0, 0⟩, []⟩

def State.result (s : State) (i : Nat) : Option Msg :=
  match s.calls[i]? with
  | some c =>
    match c.pc with
    | .returned k => s.received[k]?
    | _           => none
  | none   => none

def State.failed (s : State) (i : Nat) : Bool :=
  match s.calls[i]? with
  | some c => c.pc = .raised ∨ c.pc = .timedOut
  | none   => false

def State.interrupt (s : State) : State := { s with written := s.written ++ [⟨.bare, msix⟩] }

def Rig.setDemo (s : Rig) (j : Nat) (d : Demo) : Rig := { s with demos := s.demos.set j d }

/-- `request`, by a demo: `next` is where it waits for the call. -/
def Rig.ask (s : Rig) (j : Nat) (d : Demo) (a : Args) (next : Nat → DemoPc) : Rig :=
  let i := s.bridge.calls.length
  let b := s.bridge.request a
  { s with bridge := b }.setDemo j { d with pc := if b.failed i then .ended else next i }

def Rig.commandRead (s : Rig) (j : Nat) (d : Demo) (i : Nat) : Rig :=
  match s.bridge.result i with
  | some m =>
    if m.header.status ≠ 0 then s.setDemo j { d with pc := .ended } else s.ask j d (writeArgs s.regs) (.writing i)
  | none   => if s.bridge.failed i then s.setDemo j { d with pc := .ended } else s

def Rig.completionWritten (s : Rig) (j : Nat) (d : Demo) (i i' : Nat) : Rig :=
  match s.bridge.result i' with
  | some m =>
    if m.header.status = 0 then
      Rig.setDemo { s with bridge := s.bridge.interrupt } j
        { pc := .signalling, signal := some ⟨i, i', s.bridge.written.length⟩ }
    else s.setDemo j { d with pc := .ended }
  | none   => if s.bridge.failed i' then s.setDemo j { d with pc := .ended } else s

inductive DemoEvent where
  | start
  | call (e : CallEvent)
  | drained
  deriving DecidableEq, Repr

def Rig.callStep (s : Rig) (i : Nat) (e : CallEvent) : Option Rig :=
  (step false s.bridge (.call i e)).map (fun b => { s with bridge := b })

def demoStep (s : Rig) (j : Nat) (d : Demo) (e : DemoEvent) : Option Rig :=
  match d.pc, e with
  | .created, .start       => some (s.ask j d (readArgs s.regs) .reading)
  | .reading i, .call e    => (s.callStep i e).map (fun s => s.commandRead j d i)
  | .writing i i', .call e => (s.callStep i' e).map (fun s => s.completionWritten j d i i')
  | .signalling, .drained  => some (s.setDemo j { d with pc := .ended })
  | _, _                   => none

/-! ## The rig -/

/-- The MMIO callbacks, for the message that `serve` holds. -/
def Rig.mmio (s : Rig) : Rig :=
  match s.bridge.serve with
  | .calling k m =>
    if m.isType .mmioReadReq then
      { s with bridge := s.bridge.callback k m (zeroRead s.regs m.header.address m.header.transferLen) 0 }
    else if m.isType .mmioWriteReq then
      let (regs, demo) := acceptWrite s.regs m.header.address m.payload
      { bridge := s.bridge.callback k m [] 0, regs, demos := if demo then s.demos ++ [Demo.fresh] else s.demos }
    else s
  | _            => s

/-- What the DMA callback returns after its sleep: that many zeros, or the status. -/
def sleepData (m : Msg) : List UInt8 := List.replicate m.header.transferLen.toNat 0

inductive RigEvent where
  | recv (f : Frame)
  | eof
  /-- The DMA callback wakes. -/
  | slept
  | drained (ok : Bool)
  | demo (j : Nat) (e : DemoEvent)
  deriving DecidableEq, Repr

def rigStep (s : Rig) : RigEvent → Option Rig
  | .recv f     => (step false s.bridge (.recv f)).map (fun b => { s with bridge := b }.mmio)
  | .eof        => (step false s.bridge .eof).map (fun b => { s with bridge := b })
  | .slept      =>
    match s.bridge.serve with
    | .calling k m => some { s with bridge := s.bridge.callback k m (sleepData m) 0 }
    | _            => none
  | .drained ok => (step false s.bridge (.drained ok)).map (fun b => { s with bridge := b })
  | .demo j e   =>
    match s.demos[j]? with
    | some d => demoStep s j d e
    | none   => none

/-! ## What a run only adds to -/

/-- What was received and written stays, and so does what a call was for and what it returned. -/
structure Grows (s t : State) : Prop where
  received : s.received <+: t.received
  written  : s.written <+: t.written
  calls    : ∀ (i : Nat) (c : Call), s.calls[i]? = some c → ∃ d, t.calls[i]? = some d ∧ d.args = c.args ∧
    d.txn = c.txn ∧ d.since = c.since ∧ ∀ k, c.pc = .returned k → d.pc = .returned k

theorem Grows.refl (s : State) : Grows s s :=
  ⟨List.prefix_rfl, List.prefix_rfl, fun _ c hc => ⟨c, hc, rfl, rfl, rfl, fun _ h => h⟩⟩

theorem Grows.trans {s t u : State} (h : Grows s t) (h' : Grows t u) : Grows s u := by
  refine ⟨h.received.trans h'.received, h.written.trans h'.written, fun i c hc => ?_⟩
  obtain ⟨d, hd, hda, hdt, hds, hdr⟩ := h.calls i c hc
  obtain ⟨e, he, hea, het, hes, her⟩ := h'.calls i d hd
  exact ⟨e, he, hea.trans hda, het.trans hdt, hes.trans hds, fun k hk => her k (hdr k hk)⟩

theorem Grows.of_calls {s t : State} (hcalls : t.calls = s.calls) (hr : s.received <+: t.received)
    (hw : s.written <+: t.written) : Grows s t :=
  ⟨hr, hw, fun _ c hc => ⟨c, hcalls ▸ hc, rfl, rfl, rfl, fun _ h => h⟩⟩

theorem grows_set {s : State} {i : Nat} {c d : Call} (hc : s.calls[i]? = some c) (hargs : d.args = c.args)
    (htxn : d.txn = c.txn) (hsince : d.since = c.since) (hret : ∀ k, c.pc = .returned k → d.pc = .returned k) :
    Grows s { s with calls := s.calls.set i d } := by
  refine ⟨List.prefix_rfl, List.prefix_rfl, fun j b hb => ?_⟩
  by_cases hj : j = i
  · subst hj
    cases hb.symm.trans hc
    exact ⟨d, (set_getElem? hc j d).2 (.inl ⟨rfl, rfl⟩), hargs, htxn, hsince, hret⟩
  · exact ⟨b, (set_getElem? hc j b).2 (.inr ⟨hj, hb⟩), rfl, rfl, rfl, fun _ h => h⟩

theorem callStep_keeps {c d : Call} {e : CallEvent} (h : callStep c e = some d) :
    d.args = c.args ∧ d.txn = c.txn ∧ d.since = c.since ∧ ∀ k, c.pc ≠ .returned k := by
  unfold callStep at h
  split at h
  · split at h
    · rename_i hpc
      cases h
      exact ⟨rfl, rfl, rfl, fun k hk => by rw [hpc] at hk; cases hk⟩
    · cases h
  · split at h
    · rename_i hpc _
      cases h
      exact ⟨rfl, rfl, rfl, fun k hk => by rw [hpc] at hk; cases hk⟩
    · cases h
  · split at h
    · rename_i hpc
      cases h
      exact ⟨rfl, rfl, rfl, fun k hk => by rw [hpc] at hk; cases hk⟩
    · cases h

/-- Nothing new was written but answers and requests. -/
structure Quiet (s t : State) : Prop where
  grows : Grows s t
  bare  : ∀ (p : Nat) (w : Write), t.written[p]? = some w → s.written[p]? = some w ∨ w.source ≠ .bare

theorem Quiet.of_written {s t : State} (h : Grows s t) (hw : t.written = s.written) : Quiet s t :=
  ⟨h, fun _ _ hp => .inl (hw ▸ hp)⟩

theorem Quiet.of_snoc {s t : State} {w : Write} (h : Grows s t) (hw : t.written = s.written ++ [w])
    (hsrc : w.source ≠ .bare) : Quiet s t := by
  refine ⟨h, fun p v hp => ?_⟩
  rw [hw] at hp
  rcases snoc_getElem? hp with hp | ⟨-, rfl⟩
  · exact .inl hp
  · exact .inr hsrc

theorem Quiet.trans {s t u : State} (h : Quiet s t) (h' : Quiet t u) : Quiet s u := by
  refine ⟨h.grows.trans h'.grows, fun p w hp => ?_⟩
  rcases h'.bare p w hp with hp | hw
  · exact h.bare p w hp
  · exact .inr hw

theorem quiet_request (s : State) (a : Args) : Quiet s (s.request a) := by
  have hcalls : ∀ (c : Call) (i : Nat) (b : Call), s.calls[i]? = some b → (s.calls ++ [c])[i]? = some b :=
    fun c i b hb => getElem?_concat_of_some hb c
  unfold State.request
  dsimp only
  split
  · refine Quiet.of_snoc ⟨List.prefix_rfl, List.prefix_append _ _, fun i b hb => ?_⟩ rfl (fun h => by cases h)
    exact ⟨b, hcalls _ i b hb, rfl, rfl, rfl, fun _ h => h⟩
  · refine Quiet.of_written ⟨List.prefix_rfl, List.prefix_rfl, fun i b hb => ?_⟩ rfl
    exact ⟨b, hcalls _ i b hb, rfl, rfl, rfl, fun _ h => h⟩

theorem quiet_call {s : State} {i : Nat} {c d : Call} {e : CallEvent} (hc : s.calls[i]? = some c)
    (h : callStep c e = some d) : Quiet s { s with calls := s.calls.set i d } := by
  obtain ⟨hargs, htxn, hsince, hret⟩ := callStep_keeps h
  exact Quiet.of_written (grows_set hc hargs htxn hsince (fun k hk => absurd hk (hret k))) rfl

theorem quiet_send (s : State) (k : Nat) (h : Header) (payload : List UInt8) : Quiet s (s.send k h payload) := by
  unfold State.send
  split
  · exact Quiet.of_snoc (Grows.of_calls rfl List.prefix_rfl (List.prefix_append _ _)) rfl (fun h => by cases h)
  · exact Quiet.of_written (Grows.of_calls rfl List.prefix_rfl List.prefix_rfl) rfl

theorem quiet_serve (s : State) (pc : ServePc) : Quiet s { s with serve := pc } :=
  Quiet.of_written (Grows.of_calls rfl List.prefix_rfl List.prefix_rfl) rfl

theorem quiet_callback (s : State) (k : Nat) (m : Msg) (data : List UInt8) (status : Int) :
    Quiet s (s.callback k m data status) := by
  unfold State.callback
  split
  · exact quiet_send _ _ _ _
  · split
    · exact quiet_send _ _ _ _
    · split
      · exact quiet_send _ _ _ _
      · split
        · exact quiet_send _ _ _ _
        · exact quiet_serve _ _

theorem Call.settle_keeps (c : Call) (k : Nat) :
    (c.settle k).args = c.args ∧ (c.settle k).pc = c.pc := by
  unfold Call.settle
  split <;> exact ⟨rfl, rfl⟩

theorem quiet_receive (s : State) (msixCb : Bool) (m : Msg) : Quiet s (s.receive msixCb m) := by
  have hrec : s.received <+: s.received ++ [m] := List.prefix_append _ _
  have hpass : Quiet s { s with received := s.received ++ [m] } :=
    Quiet.of_written (Grows.of_calls rfl hrec List.prefix_rfl) rfl
  unfold State.receive
  dsimp only
  split
  · split
    · exact hpass
    · rename_i i _
      refine Quiet.of_written ⟨hrec, List.prefix_rfl, fun j c hc => ?_⟩ rfl
      obtain ⟨hargs, hpc⟩ := c.settle_keeps s.received.length
      obtain ⟨htxn, hsince⟩ := c.settle_txn s.received.length
      by_cases hj : i = j
      · exact ⟨_, by rw [List.getElem?_modify, hc]; simp [hj], hargs, htxn, hsince, fun k hk => hpc.trans hk⟩
      · exact ⟨c, by rw [List.getElem?_modify, hc]; simp [hj], rfl, rfl, rfl, fun _ hk => hk⟩
  · split
    · exact hpass.trans (quiet_serve _ _)
    · split
      · exact hpass.trans (quiet_serve _ _)
      · split
        · exact hpass.trans (quiet_send _ _ _ _)
        · split
          · exact hpass.trans (quiet_serve _ _)
          · exact hpass

end Bridge
end Vip
