import Mathlib.Data.List.Nodup
import PcieVip.LibRun
import PcieVip.Verilator
/-!
# DmaOnce — how often a descriptor is executed

A host that answers at will, and a sequence of writes to the tail register.  `desc_head` moves only at the end of a
batch that succeeded as a whole, so a batch that stops in the middle is started again from its first descriptor
(`not_atMostOnce`).  Batches that succeed as a whole or stop before their first descriptor was executed keep every
descriptor to one execution (`atMostOnce_of_wholeBatches`).
-/
namespace Vip
namespace Verilator

open Ics Run

/-! ## A host that answers at will -/

/-- The answers to one iteration: to the descriptor fetch, the outcome of the transfer, to the completion write. -/
structure Attempt where
  desc     : Option Message
  transfer : Bool
  cpl      : Option Message
  deriving DecidableEq, Repr

/-- The answers to a batch, and how many iterations have used theirs. -/
structure Script where
  answers : Nat → Attempt
  mmio    : Option (UInt64 × UInt32)
  pos     : Nat := 0

def scriptEnv : Env Script where
  sendRequestToHost type _ _ _ _ s :=
    match type with
    | .dmaReadReq  => ((s.answers s.pos).desc, s)
    | .dmaWriteReq => ((s.answers s.pos).cpl, { s with pos := s.pos + 1 })
    | _            => (none, s)
  sendResponse _ _ s := s
  dmaRead _ _ _ _ s := ((s.answers s.pos).transfer, s)
  dmaWrite _ _ _ _ s := ((s.answers s.pos).transfer, s)
  mmio _ _ _ _ s := (s.mmio, s)
  reset s := s
  doorbellSeen _ := false
  clearDoorbell s := s
  simTime _ := 0

def Attempt.outcome (a : Attempt) : Outcome := (execute scriptEnv a.desc ⟨fun _ => a, none, 0⟩).1

def Attempt.done (a : Attempt) : Bool := isSuccess a.cpl && a.outcome.status == 0

def Executed.isZeroStatus (e : Executed) : Bool := e.status.toUInt16 == 0

/-- The iteration transfers the data, or writes a completion whose 16-bit status field is zero. -/
def Attempt.executes (a : Attempt) : Bool := a.outcome.transferred || a.outcome.status.toUInt16 == 0

structure Doorbell where
  txnId   : UInt64
  payload : List UInt8
  answers : Nat → Attempt
  mmio    : Option (UInt64 × UInt32)

def Doorbell.script (d : Doorbell) : Script := ⟨d.answers, d.mmio, 0⟩

def Doorbell.tail (d : Doorbell) : UInt32 := (decodeLe d.payload).toUInt32

def Doorbell.message (d : Doorbell) : Message :=
  ⟨makeHeader .mmioWriteReq d.txnId 0x1054 0 .success 0 (UInt32.ofNat d.payload.length), d.payload⟩

/-- The shadow registers, and what was executed since the first doorbell. -/
structure Ring where
  shadow   : Shadow
  executed : List Executed := []

def ringStep (r : Ring) (d : Doorbell) : Option Ring :=
  let h := handle scriptEnv r.shadow d.message d.script
  some ⟨h.shadow, r.executed ++ h.executed⟩

/-- Each index has at most one successful transfer and at most one completion with status 0. -/
def AtMostOnce (es : List Executed) : Prop :=
  ((es.filter (·.transferred)).map (·.index)).Nodup ∧ ((es.filter (·.isZeroStatus)).map (·.index)).Nodup

instance (es : List Executed) : Decidable (AtMostOnce es) := inferInstanceAs (Decidable (_ ∧ _))

def Doorbell.accepted (v : Shadow) (d : Doorbell) : Bool :=
  v.dmaControl &&& 1 ≠ 0 && v.descCount != 0 && v.descCount ≤ 1024 && v.descHead ≤ d.tail &&
    d.tail - v.descHead ≤ v.descCount

/-- A batch succeeds as a whole, or its first descriptor fails before it is executed. -/
def WholeBatch (r : Ring) (d : Doorbell) : Prop :=
  d.accepted r.shadow = true →
    (∀ i < d.tail.toNat - r.shadow.descHead.toNat, (d.answers i).done = true) ∨
      (d.answers 0).executes = false

instance (r : Ring) (d : Doorbell) : Decidable (WholeBatch r d) :=
  inferInstanceAs (Decidable (_ → _ ∨ _))

/-! ## One batch -/

theorem execute_script (rsp : Option Message) (s : Script) (a : Attempt) (h : a.transfer = (s.answers s.pos).transfer) :
    execute scriptEnv rsp s = ((execute scriptEnv rsp ⟨fun _ => a, none, 0⟩).1, s) := by
  cases rsp with
  | none => rfl
  | some m =>
    simp only [execute]
    split
    · simp only [transfer, scriptEnv, ite_self, h]
      split
      · split <;> rfl
      · rfl
    · rfl

theorem runDescriptor_script (descBase cplBase : UInt64) (count index : UInt32) (s : Script) :
    runDescriptor scriptEnv descBase cplBase count index s =
      ⟨⟨index, (s.answers s.pos).outcome.transferred, (s.answers s.pos).outcome.status⟩, (s.answers s.pos).done,
        { s with pos := s.pos + 1 }⟩ := by
  have hfetch : ∀ addr p len b, scriptEnv.sendRequestToHost .dmaReadReq addr p len b s = ((s.answers s.pos).desc, s) :=
    fun _ _ _ _ => rfl
  have hcpl : ∀ addr p len b, scriptEnv.sendRequestToHost .dmaWriteReq addr p len b s =
      ((s.answers s.pos).cpl, { s with pos := s.pos + 1 }) := fun _ _ _ _ => rfl
  have hmsix : ∀ addr p len b t, (scriptEnv.sendRequestToHost .msiX addr p len b t).2 = t := fun _ _ _ _ _ => rfl
  have hx := execute_script (s.answers s.pos).desc s (s.answers s.pos) rfl
  unfold runDescriptor Attempt.done Attempt.outcome
  simp only [hfetch, hx, hcpl, hmsix, ite_self]
  cases isSuccess (s.answers s.pos).cpl with
  | false => simp
  | true => simp [beq_eq_decide]

def record (answers : Nat → Attempt) (head : UInt32) (i : Nat) : Executed :=
  ⟨head + UInt32.ofNat i, (answers i).outcome.transferred, (answers i).outcome.status⟩

theorem runLoop_done (descBase cplBase : UInt64) (count head : UInt32) :
    ∀ (n : Nat) (s : Script), (∀ i < n, (s.answers (s.pos + i)).done = true) →
      runLoop scriptEnv descBase cplBase count n (head + UInt32.ofNat s.pos) s =
        (true, (List.range n).map (fun i => record s.answers head (s.pos + i)), { s with pos := s.pos + n })
  | 0, _, _     => rfl
  | n + 1, s, h => by
    have hi : head + UInt32.ofNat s.pos + 1 = head + UInt32.ofNat (s.pos + 1) := by
      rw [UInt32.ofNat_add, UInt32.add_assoc]; rfl
    have ih := runLoop_done descBase cplBase count head n { s with pos := s.pos + 1 }
      (fun i hi => by simpa only [Nat.add_assoc, Nat.add_comm 1] using h (i + 1) (by omega))
    have h0 : (s.answers s.pos).done = true := h 0 (by omega)
    rw [runLoop, runDescriptor_script]
    simp only [h0, if_true, hi, ih]
    rw [List.range_succ_eq_map, List.map_cons, List.map_map]
    simp only [Function.comp_def, Nat.succ_eq_add_one, Nat.add_assoc, Nat.add_comm 1, record, Nat.add_zero]

theorem runLoop_batch (descBase cplBase : UInt64) (count head : UInt32) (n : Nat) (d : Doorbell)
    (h : ∀ i < n, (d.answers i).done = true) :
    runLoop scriptEnv descBase cplBase count n head d.script =
      (true, (List.range n).map (record d.answers head), { d.script with pos := n }) := by
  have hdone := runLoop_done descBase cplBase count head n d.script
    (fun i hi => by rw [show d.script.pos + i = i from Nat.zero_add i]; exact h i hi)
  simpa [Doorbell.script] using hdone

theorem runLoop_stop (descBase cplBase : UInt64) (count head : UInt32) (n : Nat) (d : Doorbell)
    (h : (d.answers 0).done = false) :
    runLoop scriptEnv descBase cplBase count (n + 1) head d.script =
      (false, [⟨head, (d.answers 0).outcome.transferred, (d.answers 0).outcome.status⟩],
        { d.script with pos := 1 }) := by
  have h0 : d.script.answers d.script.pos = d.answers 0 := rfl
  rw [runLoop, runDescriptor_script]
  simp only [h0, h, Bool.false_eq_true, if_false]
  rfl

theorem Attempt.done_of_executes {a : Attempt} (h : a.executes = false) : a.done = false := by
  unfold Attempt.executes at h
  unfold Attempt.done
  rw [Bool.or_eq_false_iff] at h
  cases hs : a.outcome.status == 0 with
  | false => rw [Bool.and_false]
  | true =>
    have h2 := h.2
    rw [beq_iff_eq.1 hs] at h2
    cases h2

/-! ## A sequence of doorbells -/

theorem ringStep_eq (r : Ring) (d : Doorbell) :
    ringStep r d =
      let t := r.shadow.tailDoorbell scriptEnv 0x1054 (decodeLe d.payload) d.script
      some ⟨t.1, r.executed ++ t.2.1⟩ := by
  have hreset : d.message.header.isType .resetReq = false := rfl
  have hwrite : d.message.header.isType .mmioWriteReq = true := rfl
  have hshadow : ∀ data, r.shadow.assign 0x1054 data = r.shadow := fun _ => rfl
  unfold ringStep handle
  simp only [hreset, hwrite, Bool.false_eq_true, if_false, if_true]
  unfold handleWrite
  have haddr : d.message.header.address = 0x1054 := rfl
  have hpay : d.message.payload = d.payload := rfl
  simp only [haddr, hpay, hshadow]
  rfl

theorem tailDoorbell_rejected {v : Shadow} {d : Doorbell} (h : d.accepted v = false) (s : Script) :
    (v.tailDoorbell scriptEnv 0x1054 (decodeLe d.payload) s).1.descHead = v.descHead ∧
      (v.tailDoorbell scriptEnv 0x1054 (decodeLe d.payload) s).2.1 = [] := by
  unfold Shadow.tailDoorbell
  split
  · rename_i hen
    have hguard : v.descCount = 0 ∨ v.descCount > 1024 ∨ (decodeLe d.payload).toUInt32 < v.descHead ∨
        (decodeLe d.payload).toUInt32 - v.descHead > v.descCount := by
      by_contra hg
      simp only [not_or, gt_iff_lt, UInt32.not_lt] at hg
      have : d.accepted v = true := by
        simp [Doorbell.accepted, Doorbell.tail, hen.2.1, hg.1, hg.2.1, hg.2.2.1, hg.2.2.2]
      rw [this] at h
      cases h
    simp only [runGenericDma, if_pos hguard]
    exact ⟨trivial, trivial⟩
  · exact ⟨rfl, rfl⟩

theorem tailDoorbell_accepted {v : Shadow} {d : Doorbell} (h : d.accepted v = true) (s : Script) :
    let r := runLoop scriptEnv v.descBase v.cplBase v.descCount (d.tail.toNat - v.descHead.toNat) v.descHead s
    (v.tailDoorbell scriptEnv 0x1054 (decodeLe d.payload) s).1.descHead = (if r.1 then d.tail else v.descHead) ∧
      (v.tailDoorbell scriptEnv 0x1054 (decodeLe d.payload) s).2.1 = r.2.1 := by
  simp only [Doorbell.accepted, Bool.and_eq_true, decide_eq_true_eq, bne_iff_ne] at h
  obtain ⟨⟨⟨⟨hen, hcount⟩, hle⟩, hhead⟩, htail⟩ := h
  have hguard : ¬ (v.descCount = 0 ∨ v.descCount > 1024 ∨ (decodeLe d.payload).toUInt32 < v.descHead ∨
      (decodeLe d.payload).toUInt32 - v.descHead > v.descCount) := by
    simp only [not_or, gt_iff_lt, UInt32.not_lt]
    exact ⟨hcount, hle, hhead, htail⟩
  simp only [Shadow.tailDoorbell, runGenericDma, if_neg hguard]
  rw [if_pos ⟨trivial, hen, hcount⟩]
  exact ⟨rfl, rfl⟩

structure Once (r : Ring) : Prop where
  before : ∀ e ∈ r.executed, e.transferred = true ∨ e.isZeroStatus = true → e.index < r.shadow.descHead
  once   : AtMostOnce r.executed

theorem AtMostOnce.append {es fs : List Executed} {head : UInt32} (hes : AtMostOnce es) (hfs : AtMostOnce fs)
    (hlt : ∀ e ∈ es, e.transferred = true ∨ e.isZeroStatus = true → e.index < head)
    (hge : ∀ e ∈ fs, head ≤ e.index) : AtMostOnce (es ++ fs) := by
  constructor
  · rw [List.filter_append, List.map_append]
    refine List.nodup_append.2 ⟨hes.1, hfs.1, ?_⟩
    intro a ha b hb hab
    obtain ⟨e, he, rfl⟩ := List.mem_map.1 ha
    obtain ⟨f, hf, rfl⟩ := List.mem_map.1 hb
    obtain ⟨he, ht⟩ := List.mem_filter.1 he
    have h1 := hlt e he (.inl ht)
    have h2 := hge f (List.mem_filter.1 hf).1
    rw [hab] at h1
    exact absurd h1 (UInt32.not_lt.2 h2)
  · rw [List.filter_append, List.map_append]
    refine List.nodup_append.2 ⟨hes.2, hfs.2, ?_⟩
    intro a ha b hb hab
    obtain ⟨e, he, rfl⟩ := List.mem_map.1 ha
    obtain ⟨f, hf, rfl⟩ := List.mem_map.1 hb
    obtain ⟨he, ht⟩ := List.mem_filter.1 he
    have h1 := hlt e he (.inr ht)
    have h2 := hge f (List.mem_filter.1 hf).1
    rw [hab] at h1
    exact absurd h1 (UInt32.not_lt.2 h2)

theorem record_index {head : UInt32} (tail : UInt32) (answers : Nat → Attempt) {i : Nat}
    (hi : i < tail.toNat - head.toNat) :
    (record answers head i).index.toNat = head.toNat + i := by
  have htail := tail.toNat_lt
  simp only [record, UInt32.toNat_add, UInt32.toNat_ofNat']
  omega

theorem atMostOnce_records (answers : Nat → Attempt) (head tail : UInt32) :
    AtMostOnce ((List.range (tail.toNat - head.toNat)).map (record answers head)) := by
  have hall : (((List.range (tail.toNat - head.toNat)).map (record answers head)).map (·.index)).Nodup := by
    rw [List.map_map]
    refine List.Nodup.map_on ?_ List.nodup_range
    intro i hi j hj hij
    have h1 := record_index tail answers (List.mem_range.1 hi)
    have h2 := record_index tail answers (List.mem_range.1 hj)
    simp only [Function.comp_apply] at hij
    rw [hij] at h1
    omega
  exact ⟨hall.sublist (List.filter_sublist.map _), hall.sublist (List.filter_sublist.map _)⟩

/-- **A whole batch, or one that stops before it executes anything, keeps every index to one execution.** -/
theorem ringStep_once {r r' : Ring} {d : Doorbell} (hi : Once r) (hg : WholeBatch r d) (h : ringStep r d = some r') :
    Once r' := by
  rw [ringStep_eq] at h
  cases h
  cases hacc : d.accepted r.shadow with
  | false =>
    obtain ⟨hhead, hexec⟩ := tailDoorbell_rejected hacc d.script
    refine ⟨?_, ?_⟩
    · dsimp only; rw [hexec, List.append_nil, hhead]; exact hi.before
    · dsimp only; rw [hexec, List.append_nil]; exact hi.once
  | true =>
    obtain ⟨hhead, hexec⟩ := tailDoorbell_accepted hacc d.script
    have hle : r.shadow.descHead.toNat ≤ d.tail.toNat := by
      simp only [Doorbell.accepted, Bool.and_eq_true, decide_eq_true_eq] at hacc
      exact UInt32.le_iff_toNat_le.1 hacc.1.2
    by_cases hall : ∀ i < d.tail.toNat - r.shadow.descHead.toNat, (d.answers i).done = true
    · -- the head moves past the whole batch
      have hloop := runLoop_batch r.shadow.descBase r.shadow.cplBase r.shadow.descCount r.shadow.descHead _ d hall
      rw [hloop] at hhead hexec
      simp only [if_true] at hhead
      have hidx : ∀ e ∈ (List.range (d.tail.toNat - r.shadow.descHead.toNat)).map
          (record d.answers r.shadow.descHead),
          r.shadow.descHead.toNat ≤ e.index.toNat ∧ e.index.toNat < d.tail.toNat := by
        intro e he
        obtain ⟨i, hi', rfl⟩ := List.mem_map.1 he
        have := List.mem_range.1 hi'
        rw [record_index d.tail d.answers this]
        omega
      refine ⟨?_, ?_⟩
      · intro e he hex
        dsimp only at he ⊢
        rw [hhead, UInt32.lt_iff_toNat_lt]
        rw [hexec] at he
        rcases List.mem_append.1 he with he | he
        · have := UInt32.lt_iff_toNat_lt.1 (hi.before e he hex)
          omega
        · exact (hidx e he).2
      · dsimp only
        rw [hexec]
        exact hi.once.append (atMostOnce_records _ _ _) hi.before
          (fun e he => UInt32.le_iff_toNat_le.2 (hidx e he).1)
    · -- the first descriptor was not executed
      have hnot := (hg hacc).resolve_left hall
      have hstop := Attempt.done_of_executes hnot
      obtain ⟨n, hn⟩ : ∃ n, d.tail.toNat - r.shadow.descHead.toNat = n + 1 := by
        cases hd : d.tail.toNat - r.shadow.descHead.toNat with
        | zero => exact absurd (fun i hi' => by rw [hd] at hi'; cases hi') hall
        | succ n => exact ⟨n, rfl⟩
      have hloop := runLoop_stop r.shadow.descBase r.shadow.cplBase r.shadow.descCount r.shadow.descHead n d hstop
      rw [hn, hloop] at hhead hexec
      simp only [Bool.false_eq_true, if_false] at hhead
      unfold Attempt.executes at hnot
      rw [Bool.or_eq_false_iff] at hnot
      refine ⟨?_, ?_⟩
      · intro e he hex
        dsimp only at he ⊢
        rw [hhead]
        rw [hexec] at he
        rcases List.mem_append.1 he with he | he
        · exact hi.before e he hex
        · rw [List.mem_singleton.1 he] at hex
          rcases hex with hex | hex
          · rw [hnot.1] at hex; cases hex
          · exact absurd (hnot.2.symm.trans hex) Bool.false_ne_true
      · dsimp only
        rw [hexec]
        constructor
        · rw [List.filter_append, List.filter_cons_of_neg (by simp [hnot.1]), List.filter_nil, List.append_nil]
          exact hi.once.1
        · rw [List.filter_append, List.filter_cons_of_neg (by simp [Executed.isZeroStatus, hnot.2]), List.filter_nil,
            List.append_nil]
          exact hi.once.2

/-- **Each descriptor is executed at most once in every run of whole batches.** -/
theorem atMostOnce_of_wholeBatches (v : Shadow) (ds : List Doorbell) (r : Ring)
    (hg : Along ringStep WholeBatch ⟨v, []⟩ ds) (h : run ringStep ⟨v, []⟩ ds = some r) : AtMostOnce r.executed := by
  have hinit : Once ⟨v, []⟩ := ⟨fun _ he => (by cases he), List.nodup_nil, List.nodup_nil⟩
  exact (run_invariant_along (fun _ _ _ hi hg he => ringStep_once hi hg he) ds _ r hinit hg h).once

def sampleDesc : Message :=
  ⟨makeHeader .dmaReadRsp 1 0 0 .success 0 32 kFlagIsResponse,
    [0, 0x10, 0, 0, 0, 0, 0, 0, 0, 0, 0, 0, 64, 0, 0, 0, 0, 1, 0, 0, 0, 0, 0, 0, 0, 0, 0, 0, 0, 0, 0, 0]⟩

def sampleAck : Message := ⟨makeHeader .dmaWriteRsp 2 0 0 .success 0 0 kFlagIsResponse, []⟩

/-- A batch whose first transfer fails, the same batch again with success, and a further one. -/
theorem atMostOnce_of_wholeBatches_retry :
    let good : Attempt := ⟨some sampleDesc, true, some sampleAck⟩
    let bad : Attempt := ⟨some sampleDesc, false, some sampleAck⟩
    let v : Shadow := { descBase := 0x8000, cplBase := 0x9000, descCount := 2, dmaControl := 1 }
    let ds : List Doorbell :=
      [⟨1, [2, 0, 0, 0], fun _ => bad, none⟩, ⟨2, [2, 0, 0, 0], fun _ => good, none⟩,
        ⟨3, [4, 0, 0, 0], fun _ => good, none⟩]
    ∃ r, run ringStep ⟨v, []⟩ ds = some r ∧ r.shadow.descHead = 4 ∧ AtMostOnce r.executed := by
  intro good bad v ds
  have hrun : (run ringStep ⟨v, []⟩ ds).map (fun r => r.shadow.descHead) = some 4 := by decide +kernel
  obtain ⟨r, hr, hhead⟩ := Option.map_eq_some_iff.1 hrun
  exact ⟨r, hr, hhead, atMostOnce_of_wholeBatches v ds r (by decide +kernel) hr⟩

/-- A batch of two whose second transfer fails, and the same doorbell again: index 0 is executed twice. -/
theorem not_atMostOnce :
    ¬ ∀ (v : Shadow) (ds : List Doorbell) (r : Ring), run ringStep ⟨v, []⟩ ds = some r → AtMostOnce r.executed := by
  intro hall
  let good : Attempt := ⟨some sampleDesc, true, some sampleAck⟩
  let bad : Attempt := ⟨some sampleDesc, false, some sampleAck⟩
  let v : Shadow := { descBase := 0x8000, cplBase := 0x9000, descCount := 2, dmaControl := 1 }
  let ds : List Doorbell :=
    [⟨1, [2, 0, 0, 0], fun i => if i = 0 then good else bad, none⟩, ⟨2, [2, 0, 0, 0], fun _ => good, none⟩]
  have hrun : (run ringStep ⟨v, []⟩ ds).map (fun r => decide (AtMostOnce r.executed)) = some false := by decide +kernel
  obtain ⟨r, hr, hno⟩ := Option.map_eq_some_iff.1 hrun
  exact of_decide_eq_false hno (hall v ds r hr)

end Verilator
end Vip
