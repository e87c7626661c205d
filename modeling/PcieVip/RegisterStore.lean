import PcieVip.LengthChecks
import PcieVip.LibServe
/-!
# RegisterStore — the software model as a register store

What a run of `SoftwareEndpointModel` has done is a list of events: a message, the host's answers while it was handled,
and what the model sent.  From the events alone follows what each register holds: what the last successful write since
the last reset put there (`lastWritten`).  `Holds` says that the model holds just that, with CSTS.RDY for CC.EN and no
doorbell left over, and every message keeps it (`Holds.step`).  `software_register_store` says from it how each message
of a run is answered.  `Run` ends at SHUTDOWN; the messages of a run are those before it, and they are any list.
-/
namespace Vip
namespace Endpoint

open Alex Bytes Ics Serve Verilator

/-! ## Events -/

def Out.isRequest : Out → Bool
  | .response _ _    => false
  | .request _ _ _ _ => true

def Out.response? : Out → Option (Header × List UInt8)
  | .response h p    => some (h, p)
  | .request _ _ _ _ => none

/-- A message that was handled, the host's answers meanwhile, and what the model sent. -/
structure Event where
  msg     : Message
  answers : List (Option Message)
  log     : List Out

namespace Event

def responses (e : Event) : List (Header × List UInt8) := e.log.filterMap Out.response?

def requests (e : Event) : List Out := e.log.filter Out.isRequest

def isReset (e : Event) : Bool := e.msg.header.isType .resetReq

def wrote (e : Event) (addr : UInt64) : Bool :=
  e.msg.header.isType .mmioWriteReq && e.msg.header.address == addr && e.log.any Out.succeeds

theorem responses_eq {e : Event} {h : Header} {p : List UInt8} {reqs : List Out} (hlog : e.log = .response h p :: reqs)
    (hreqs : ∀ o ∈ reqs, o.isRequest = true) : e.responses = [(h, p)] ∧ e.requests = reqs := by
  have hnone : ∀ o ∈ reqs, o.response? = none := by
    intro o ho
    have hreq := hreqs o ho
    cases o with
    | response h p    => cases hreq
    | request _ _ _ _ => rfl
  constructor
  · rw [responses, hlog, List.filterMap_cons, List.filterMap_eq_nil_iff.2 hnone]
    rfl
  · rw [requests, hlog, List.filter_cons, List.filter_eq_self.2 hreqs]
    rfl

end Event

theorem dmaTrace_isRequest (asq acq : UInt64) (answers : List (Option Message)) :
    ∀ o ∈ dmaTrace asq acq answers, o.isRequest = true := by
  intro o ho
  unfold dmaTrace at ho
  split_ifs at ho <;> simp only [List.mem_cons, List.not_mem_nil, or_false] at ho
  · rcases ho with rfl | rfl | rfl <;> rfl
  · rcases ho with rfl | rfl <;> rfl
  · rw [ho]
    rfl

/-- The payload of the last successful write at an address since the last reset. -/
def lastWritten (tr : List Event) (addr : UInt64) : Option (List UInt8) :=
  (tr.reverse.find? (fun e => e.isReset || e.wrote addr)).bind (fun e => if e.isReset then none else some e.msg.payload)

def value32 (tr : List Event) (addr : UInt64) : UInt32 := ((lastWritten tr addr).map decodeU32).getD 0

def value64 (tr : List Event) (addr : UInt64) : UInt64 := ((lastWritten tr addr).map decodeU64).getD 0

theorem lastWritten_concat (tr : List Event) (e : Event) (addr : UInt64) :
    lastWritten (tr ++ [e]) addr =
      if e.isReset then none else if e.wrote addr then some e.msg.payload else lastWritten tr addr := by
  unfold lastWritten
  rw [List.reverse_concat, List.find?_cons]
  cases hr : e.isReset with
  | true  => simp [hr]
  | false =>
    cases hw : e.wrote addr with
    | true  => simp [hr]
    | false => simp

/-! ## One message -/

namespace Software

def step (s : Software) (i : Message × List (Option Message)) : Software × Event :=
  let r := s.handle i.1 ⟨i.2, []⟩
  (r.1, ⟨i.1, i.2, r.2.log⟩)

theorem store_taken (s : Software) {addr : UInt64} {payload : List UInt8}
    (h : decodes addr (UInt32.ofNat payload.length)) :
    s.store addr payload =
      (.success,
        { s with
          cc           := if addr = kCcReg then decodeU32 payload else s.cc
          csts         := if addr = kCcReg then
              if decodeU32 payload &&& 1 ≠ 0 then s.csts ||| 1 else s.csts &&& ~~~1
            else s.csts
          asq          := if addr = kAdminSqReg then decodeU64 payload else s.asq
          acq          := if addr = kAdminCqReg then decodeU64 payload else s.acq
          aqa          := if addr = kAqaReg then decodeU32 payload else s.aqa
          doorbellRung := decide (addr = kSq0Doorbell) || s.doorbellRung }) := by
  unfold store
  generalize UInt32.ofNat payload.length = len at h
  rcases h with ⟨rfl, rfl | rfl | rfl⟩ | ⟨rfl, rfl | rfl⟩ <;> rfl

structure SameRegisters (s t : Software) : Prop where
  cc   : s.cc = t.cc
  csts : s.csts = t.csts
  asq  : s.asq = t.asq
  acq  : s.acq = t.acq
  aqa  : s.aqa = t.aqa

section Step

variable (s : Software) {msg : Message} (answers : List (Option Message))

theorem step_reset (h : msg.header.isType .resetReq = true) :
    (∃ t, (s.step (msg, answers)).1 = { simTime := t, doorbellRung := s.doorbellRung }) ∧
      ∃ t, (s.step (msg, answers)).2.log =
        [.response (makeHeader .resetRsp msg.header.txnId 0 0 .success t 0 kFlagIsResponse) []] := by
  unfold step handle
  simp only [h, if_true]
  exact ⟨⟨_, rfl⟩, _, rfl⟩

theorem step_read (h : msg.header.isType .mmioReadReq = true) :
    (∃ t, (s.step (msg, answers)).1 = { s with simTime := t }) ∧
      ∃ t, (s.step (msg, answers)).2.log =
        [.response (makeHeader .mmioReadRsp msg.header.txnId msg.header.address 0 (s.load msg).1 t
          (UInt32.ofNat (s.load msg).2.length) kFlagIsResponse) (s.load msg).2] := by
  have hreset : msg.header.isType .resetReq = false := Header.isType_of_ne h (by decide)
  have hwrite : msg.header.isType .mmioWriteReq = false := Header.isType_of_ne h (by decide)
  unfold step handle
  simp only [h, hreset, hwrite, Bool.false_eq_true, if_false, if_true]
  exact ⟨⟨_, rfl⟩, _, rfl⟩

theorem step_other (hreset : msg.header.isType .resetReq = false) (hwrite : msg.header.isType .mmioWriteReq = false)
    (hread : msg.header.isType .mmioReadReq = false) :
    (∃ t, (s.step (msg, answers)).1 = { s with simTime := t }) ∧ (s.step (msg, answers)).2.log = [] := by
  unfold step handle
  simp only [hreset, hwrite, hread, Bool.false_eq_true, if_false]
  exact ⟨⟨_, rfl⟩, trivial⟩

theorem step_refused (hw : msg.header.isType .mmioWriteReq = true) (hidle : s.doorbellRung = false)
    (h : ¬ decodes msg.header.address (UInt32.ofNat msg.payload.length)) :
    (∃ t, (s.step (msg, answers)).1 = { s with simTime := t }) ∧ ∃ st t, st ≠ .success ∧
      (s.step (msg, answers)).2.log =
        [.response (makeHeader .mmioWriteRsp msg.header.txnId msg.header.address 0 st t 0 kFlagIsResponse) []] := by
  have hreset : msg.header.isType .resetReq = false := Header.isType_of_ne hw (by decide)
  obtain ⟨⟨t, hs⟩, hlog⟩ := (s.tick 15).handleMmioWrite_spec msg ⟨answers, []⟩
  obtain ⟨hiff, hkeep⟩ := (s.tick 15).store_refused_iff msg.header.address msg.payload
  have hst := hiff.2 h
  rw [hkeep hst] at hs hlog
  rw [if_neg (show ¬ (s.tick 15).doorbellRung = true by rw [show (s.tick 15).doorbellRung = false from hidle]; decide),
    List.nil_append] at hlog
  unfold step handle
  simp only [hw, hreset, Bool.false_eq_true, if_false, if_true]
  refine ⟨⟨t, ?_⟩, _, _, hst, hlog⟩
  rw [hs, ← hidle]
  rfl

theorem step_taken (hw : msg.header.isType .mmioWriteReq = true) (hidle : s.doorbellRung = false)
    (h : decodes msg.header.address (UInt32.ofNat msg.payload.length)) :
    (∃ t, (s.step (msg, answers)).1 =
      { simTime := t
        cc      := if msg.header.address = kCcReg then decodeU32 msg.payload else s.cc
        csts    := if msg.header.address = kCcReg then
            if decodeU32 msg.payload &&& 1 ≠ 0 then s.csts ||| 1 else s.csts &&& ~~~1
          else s.csts
        asq     := if msg.header.address = kAdminSqReg then decodeU64 msg.payload else s.asq
        acq     := if msg.header.address = kAdminCqReg then decodeU64 msg.payload else s.acq
        aqa     := if msg.header.address = kAqaReg then decodeU32 msg.payload else s.aqa }) ∧
      ∃ t, (s.step (msg, answers)).2.log =
        .response (makeHeader .mmioWriteRsp msg.header.txnId msg.header.address 0 .success t 0 kFlagIsResponse) [] ::
          if msg.header.address = kSq0Doorbell then dmaTrace s.asq s.acq answers else [] := by
  have hreset : msg.header.isType .resetReq = false := Header.isType_of_ne hw (by decide)
  obtain ⟨⟨t, hs⟩, hlog⟩ := (s.tick 15).handleMmioWrite_spec msg ⟨answers, []⟩
  rw [store_taken _ h] at hs hlog
  have hrung : (decide (msg.header.address = kSq0Doorbell) || (s.tick 15).doorbellRung) = true ↔
      msg.header.address = kSq0Doorbell := by
    rw [show (s.tick 15).doorbellRung = false from hidle, Bool.or_false, decide_eq_true_eq]
  unfold step handle
  simp only [hw, hreset, Bool.false_eq_true, if_false, if_true]
  refine ⟨⟨t, hs⟩, (s.tick 15).simTime, ?_⟩
  rw [hlog, List.nil_append]
  congr 1
  by_cases hbell : msg.header.address = kSq0Doorbell
  · -- the queue registers are at other addresses
    rw [if_pos hbell, if_pos (hrung.2 hbell), hbell]
    rfl
  · rw [if_neg hbell, if_neg (fun hc => hbell (hrung.1 hc))]

end Step

end Software

/-! ## Runs -/

theorem value32_concat (tr : List Event) (e : Event) (addr : UInt64) :
    value32 (tr ++ [e]) addr =
      if e.isReset then 0 else if e.wrote addr then decodeU32 e.msg.payload else value32 tr addr := by
  unfold value32
  rw [lastWritten_concat]
  split
  · rfl
  · split <;> rfl

theorem value64_concat (tr : List Event) (e : Event) (addr : UInt64) :
    value64 (tr ++ [e]) addr =
      if e.isReset then 0 else if e.wrote addr then decodeU64 e.msg.payload else value64 tr addr := by
  unfold value64
  rw [lastWritten_concat]
  split
  · rfl
  · split <;> rfl

/-- The model holds what the events put there, and is ready exactly if it is enabled. -/
structure Holds (tr : List Event) (s : Software) : Prop where
  cc   : s.cc = value32 tr kCcReg
  aqa  : s.aqa = value32 tr kAqaReg
  asq  : s.asq = value64 tr kAdminSqReg
  acq  : s.acq = value64 tr kAdminCqReg
  csts : s.csts = s.cc &&& 1
  idle : s.doorbellRung = false

theorem holds_init : Holds [] {} := ⟨rfl, rfl, rfl, rfl, rfl, rfl⟩

theorem and_one_cases (c : UInt32) : c &&& 1 = 0 ∨ c &&& 1 = 1 := by
  rw [← UInt32.toNat_inj, ← UInt32.toNat_inj, UInt32.toNat_and]
  change c.toNat &&& 1 = 0 ∨ c.toNat &&& 1 = 1
  rw [Nat.and_one_is_mod]
  omega

theorem ready_eq (c d : UInt32) : (if d &&& 1 ≠ 0 then (c &&& 1) ||| 1 else (c &&& 1) &&& ~~~1) = d &&& 1 := by
  rcases and_one_cases c with hc | hc <;> rcases and_one_cases d with hd | hd <;> rw [hc, hd] <;> decide

namespace Holds

variable {tr : List Event} {s : Software}

theorem frame (h : Holds tr s) {e : Event} (hr : e.isReset = false) (hw : ∀ a, e.wrote a = false) {s' : Software}
    (hs : ∃ t, s' = { s with simTime := t }) : Holds (tr ++ [e]) s' := by
  obtain ⟨t, rfl⟩ := hs
  have h32 : ∀ a, value32 (tr ++ [e]) a = value32 tr a := fun a => by simp [value32_concat, hr, hw]
  have h64 : ∀ a, value64 (tr ++ [e]) a = value64 tr a := fun a => by simp [value64_concat, hr, hw]
  exact ⟨h.cc.trans (h32 _).symm, h.aqa.trans (h32 _).symm, h.asq.trans (h64 _).symm, h.acq.trans (h64 _).symm, h.csts,
    h.idle⟩

theorem taken (h : Holds tr s) {msg : Message} (hw : msg.header.isType .mmioWriteReq = true)
    (hd : Software.decodes msg.header.address (UInt32.ofNat msg.payload.length)) (answers : List (Option Message)) :
    Holds (tr ++ [(s.step (msg, answers)).2]) (s.step (msg, answers)).1 := by
  obtain ⟨⟨t, hs⟩, ⟨t', hlog⟩⟩ := s.step_taken answers hw h.idle hd
  have hreset : (s.step (msg, answers)).2.isReset = false := Header.isType_of_ne hw (by decide)
  have hwrote : ∀ a, (s.step (msg, answers)).2.wrote a = true ↔ msg.header.address = a := by
    intro a
    have hok : (s.step (msg, answers)).2.log.any Out.succeeds = true := by
      rw [hlog]
      rfl
    rw [Event.wrote, hok]
    simp only [Software.step, hw, Bool.true_and, Bool.and_true, beq_iff_eq]
  rw [hs]
  refine ⟨?_, ?_, ?_, ?_, ?_, rfl⟩
  · simp only [value32_concat, hreset, hwrote, ← h.cc, Bool.false_eq_true, if_false]
    rfl
  · simp only [value32_concat, hreset, hwrote, ← h.aqa, Bool.false_eq_true, if_false]
    rfl
  · simp only [value64_concat, hreset, hwrote, ← h.asq, Bool.false_eq_true, if_false]
    rfl
  · simp only [value64_concat, hreset, hwrote, ← h.acq, Bool.false_eq_true, if_false]
    rfl
  · dsimp only
    split
    · rw [h.csts, ready_eq]
    · exact h.csts

/-- **Every message keeps it.** -/
theorem step (h : Holds tr s) (i : Message × List (Option Message)) : Holds (tr ++ [(s.step i).2]) (s.step i).1 := by
  obtain ⟨msg, answers⟩ := i
  by_cases hreset : msg.header.isType .resetReq = true
  · obtain ⟨⟨t, hs⟩, -⟩ := s.step_reset answers hreset
    have h32 : ∀ a, value32 (tr ++ [(s.step (msg, answers)).2]) a = 0 :=
      fun a => (value32_concat _ _ _).trans (if_pos hreset)
    have h64 : ∀ a, value64 (tr ++ [(s.step (msg, answers)).2]) a = 0 :=
      fun a => (value64_concat _ _ _).trans (if_pos hreset)
    rw [hs]
    exact ⟨(h32 _).symm, (h32 _).symm, (h64 _).symm, (h64 _).symm, show (0 : UInt32) = 0 &&& 1 by decide, h.idle⟩
  · have hreset := Bool.eq_false_iff.2 hreset
    have hframe := h.frame (e := (s.step (msg, answers)).2) hreset
    by_cases hw : msg.header.isType .mmioWriteReq = true
    · by_cases hd : Software.decodes msg.header.address (UInt32.ofNat msg.payload.length)
      · exact h.taken hw hd answers
      · obtain ⟨hs, st, t, hst, hlog⟩ := s.step_refused answers hw h.idle hd
        refine hframe (fun a => ?_) hs
        rw [Event.wrote, hlog]
        simp [Out.succeeds, isStatus_makeHeader, hst]
    · have hw := Bool.eq_false_iff.2 hw
      have hquiet : ∀ a, (s.step (msg, answers)).2.wrote a = false := by
        intro a
        simp [Event.wrote, Software.step, hw]
      by_cases hr : msg.header.isType .mmioReadReq = true
      · exact hframe hquiet (s.step_read answers hr).1
      · exact hframe hquiet (s.step_other answers hreset hw (Bool.eq_false_iff.2 hr)).1

end Holds

/-- **In every run the model holds what the events put there.** -/
theorem holds_run (is : List (Message × List (Option Message))) :
    Holds (outputs Software.step {} is) (after Software.step {} is) :=
  trace_invariant (I := Holds) (fun _ _ i h => h.step i) is [] {} holds_init

/-! ## How each message is answered -/

def readLength (msg : Message) : UInt32 :=
  if msg.header.transferLen = 0 then popcountll msg.header.byteEnable else msg.header.transferLen

theorem Software.load_eq_of_length (s : Software) {msg : Message}
    (h : readLength msg = 1 ∨ readLength msg = 2 ∨ readLength msg = 4 ∨ readLength msg = 8) :
    s.load msg =
      if addrValid msg.header.address (readLength msg) = true ∧ (s.register? msg.header.address).isSome = true then
        (.success, encodeLe ((s.register? msg.header.address).getD 0).toUInt64 (readLength msg))
      else (.errorInvalidAddress, []) := by
  have hgood : ¬ (readLength msg ≠ 1 ∧ readLength msg ≠ 2 ∧ readLength msg ≠ 4 ∧ readLength msg ≠ 8) := by
    rintro ⟨h1, h2, h4, h8⟩
    rcases h with h | h | h | h <;> contradiction
  unfold Software.load
  rw [← readLength]
  dsimp only
  rw [if_neg hgood, if_neg hgood]
  cases addrValid msg.header.address (readLength msg) with
  | false => rfl
  | true  =>
    cases s.register? msg.header.address with
    | none   => rfl
    | some v => rfl

theorem Software.load_bad (s : Software) {msg : Message}
    (h : ¬ (readLength msg = 1 ∨ readLength msg = 2 ∨ readLength msg = 4 ∨ readLength msg = 8)) :
    (s.load msg).1 ≠ .success := by
  have hbad : readLength msg ≠ 1 ∧ readLength msg ≠ 2 ∧ readLength msg ≠ 4 ∧ readLength msg ≠ 8 := by
    simpa only [not_or] using h
  unfold Software.load
  rw [← readLength]
  dsimp only
  rw [if_pos hbad, if_pos hbad]
  split
  · nofun
  · split <;> nofun

theorem Software.load_success {s : Software} {msg : Message} (h : (s.load msg).1 = .success) :
    (s.load msg).2 = encodeLe ((s.register? msg.header.address).getD 0).toUInt64 (readLength msg) := by
  by_cases hlen : readLength msg = 1 ∨ readLength msg = 2 ∨ readLength msg = 4 ∨ readLength msg = 8
  · rw [s.load_eq_of_length hlen] at h ⊢
    split at h
    · rename_i hok
      rw [if_pos hok]
    · cases h
  · exact absurd h (s.load_bad hlen)

def answerType : MessageType → Option MessageType
  | .resetReq     => some .resetRsp
  | .mmioReadReq  => some .mmioReadRsp
  | .mmioWriteReq => some .mmioWriteRsp
  | _             => none

structure Answered (tr : List Event) (s s' : Software) (e : Event) : Prop where
  response : ∀ q a, answerType q = some a → e.msg.header.isType q = true →
    ∃ h p, e.responses = [(h, p)] ∧ h.txnId = e.msg.header.txnId ∧ h.isType a = true
  refused  : ∀ h p, (h, p) ∈ e.responses → h.isStatus .success = false → s'.SameRegisters s ∧ e.requests = []
  read     : ∀ reg, reg = kCcReg ∨ reg = kAqaReg → e.msg.header.isType .mmioReadReq = true →
    e.msg.header.address = reg → ∀ h p, (h, p) ∈ e.responses → h.isStatus .success = true →
      p = encodeLe (value32 tr reg).toUInt64 (readLength e.msg)
  ready    : s.csts = s.cc &&& 1 ∧ s'.csts = s'.cc &&& 1
  doorbell : e.requests = if e.wrote kSq0Doorbell then
      dmaTrace (value64 tr kAdminSqReg) (value64 tr kAdminCqReg) e.answers
    else []

section Answers

variable {tr : List Event} {s s' : Software} (hs : Holds tr s)
include hs

theorem answered_of_log {e : Event} (hs' : Holds (tr ++ [e]) s') {q a : MessageType} (ha : answerType q = some a)
    (hq : e.msg.header.isType q = true) {h : Header} {p : List UInt8} {reqs : List Out}
    (hlog : e.log = .response h p :: reqs) (hreqs : ∀ o ∈ reqs, o.isRequest = true)
    (htxn : h.txnId = e.msg.header.txnId) (htype : h.isType a = true)
    (hrefused : h.isStatus .success = false → s'.SameRegisters s ∧ reqs = [])
    (hread : q = .mmioReadReq → h.isStatus .success = true →
      p = encodeLe ((s.register? e.msg.header.address).getD 0).toUInt64 (readLength e.msg))
    (hbell : reqs = if e.wrote kSq0Doorbell then dmaTrace s.asq s.acq e.answers else []) :
    Answered tr s s' e := by
  obtain ⟨hrsp, hreq⟩ := Event.responses_eq hlog hreqs
  refine ⟨fun q' a' ha' hq' => ?_, fun h' p' hmem hst => ?_, fun reg hreg hr haddr h' p' hmem hst => ?_,
    ⟨hs.csts, hs'.csts⟩, ?_⟩
  · cases Header.isType_unique hq hq'
    cases ha.symm.trans ha'
    exact ⟨h, p, hrsp, htxn, htype⟩
  · rw [hrsp] at hmem
    cases List.mem_singleton.1 hmem
    rw [hreq]
    exact hrefused hst
  · rw [hrsp] at hmem
    cases List.mem_singleton.1 hmem
    rw [hread (Header.isType_unique hq hr) hst, haddr]
    rcases hreg with rfl | rfl
    · rw [← hs.cc]
      rfl
    · rw [← hs.aqa]
      rfl
  · rw [hreq, hbell, hs.asq, hs.acq]

variable {msg : Message} (answers : List (Option Message))

theorem answered_reset (hr : msg.header.isType .resetReq = true) :
    Answered tr s (s.step (msg, answers)).1 (s.step (msg, answers)).2 := by
  obtain ⟨-, t, hlog⟩ := s.step_reset answers hr
  refine answered_of_log hs (hs.step (msg, answers)) rfl hr hlog (List.forall_mem_nil _) rfl rfl nofun nofun ?_
  rw [Event.wrote, show (s.step (msg, answers)).2.msg = msg from rfl, Header.isType_of_ne hr (by decide)]
  rfl

theorem answered_read (hr : msg.header.isType .mmioReadReq = true) :
    Answered tr s (s.step (msg, answers)).1 (s.step (msg, answers)).2 := by
  obtain ⟨⟨t, hstate⟩, t', hlog⟩ := s.step_read answers hr
  refine answered_of_log hs (hs.step (msg, answers)) rfl hr hlog (List.forall_mem_nil _) rfl rfl (fun _ => ⟨?_, rfl⟩)
    (fun _ hst => ?_) ?_
  · rw [hstate]
    exact ⟨rfl, rfl, rfl, rfl, rfl⟩
  · rw [isStatus_makeHeader, decide_eq_true_eq] at hst
    exact Software.load_success hst
  · rw [Event.wrote, show (s.step (msg, answers)).2.msg = msg from rfl, Header.isType_of_ne hr (by decide)]
    rfl

theorem answered_write (hw : msg.header.isType .mmioWriteReq = true) :
    Answered tr s (s.step (msg, answers)).1 (s.step (msg, answers)).2 := by
  by_cases hd : Software.decodes msg.header.address (UInt32.ofNat msg.payload.length)
  · obtain ⟨-, t, hlog⟩ := s.step_taken answers hw hs.idle hd
    refine answered_of_log hs (hs.step (msg, answers)) rfl hw hlog ?_ rfl rfl (fun h => ?_) (fun h => ?_) ?_
    · split
      · exact dmaTrace_isRequest _ _ _
      · exact List.forall_mem_nil _
    · rw [isStatus_makeHeader] at h
      cases h
    · cases h
    · have hwrote : (s.step (msg, answers)).2.wrote kSq0Doorbell = true ↔ msg.header.address = kSq0Doorbell := by
        rw [Event.wrote, hlog]
        simp only [Software.step, hw, Bool.true_and, List.any_cons, Out.succeeds, isStatus_makeHeader, decide_true,
          Bool.true_or, Bool.and_true, beq_iff_eq]
      simp only [hwrote]
      rfl
  · obtain ⟨⟨t, hstate⟩, st, t', hst, hlog⟩ := s.step_refused answers hw hs.idle hd
    refine answered_of_log hs (hs.step (msg, answers)) rfl hw hlog (List.forall_mem_nil _) rfl rfl (fun _ => ⟨?_, rfl⟩)
      (fun h => ?_) ?_
    · rw [hstate]
      exact ⟨rfl, rfl, rfl, rfl, rfl⟩
    · cases h
    · rw [Event.wrote, hlog]
      simp [Out.succeeds, isStatus_makeHeader, hst]

/-- **A message is answered from what the events put there.** -/
theorem answered_step (i : Message × List (Option Message)) : Answered tr s (s.step i).1 (s.step i).2 := by
  obtain ⟨msg, answers⟩ := i
  by_cases hreset : msg.header.isType .resetReq = true
  · exact answered_reset hs answers hreset
  by_cases hw : msg.header.isType .mmioWriteReq = true
  · exact answered_write hs answers hw
  by_cases hr : msg.header.isType .mmioReadReq = true
  · exact answered_read hs answers hr
  -- any other message is not answered at all
  have hw' := Bool.eq_false_iff.2 hw
  obtain ⟨-, hlog⟩ := s.step_other answers (Bool.eq_false_iff.2 hreset) hw' (Bool.eq_false_iff.2 hr)
  have hrsp : (s.step (msg, answers)).2.responses = [] := by
    rw [Event.responses, hlog]
    rfl
  have hreq : (s.step (msg, answers)).2.requests = [] := by
    rw [Event.requests, hlog]
    rfl
  refine ⟨fun q a ha hq => ?_, fun h p hmem => ?_, fun _ _ hr' => absurd hr' hr, ⟨hs.csts, (hs.step _).csts⟩, ?_⟩
  · exfalso
    cases q with
    | resetReq     => exact hreset hq
    | mmioWriteReq => exact hw hq
    | mmioReadReq  => exact hr hq
    | _            => cases ha
  · rw [hrsp] at hmem
    cases hmem
  · rw [hreq, Event.wrote, show (s.step (msg, answers)).2.msg = msg from rfl, hw']
    rfl

end Answers

end Endpoint
end Vip
