import Mathlib.Data.List.Nodup
import Mathlib.Data.Nat.ModEq
import PcieVip.DriverBatch
/-!
# RingWindow — what `RunGenericDma` sends, descriptor by descriptor

The environment keeps a log of what the loop asks of it and of the answers (`Env.logged`); `iterations` is that log, cut
at the descriptors.  A completion says zero exactly for a descriptor that was carried out, unless the fetch was answered
with a status whose low half is zero and with no record (`completions_truthful_iff`); and a run in which everything
succeeds is the window of the ring from head to tail (`runGenericDma_window`).
-/
namespace Vip
namespace Verilator

open Bytes Ics

variable {σ : Type}

/-! ## The log -/

/-- A request to the host with its answer, or a transfer with its result. -/
inductive Act where
  | request (type : MessageType) (address : UInt64) (payload : List UInt8) (transferLen : UInt32)
      (expectResponse : Bool) (answer : Option Message)
  | dma (write : Bool) (hostAddr : UInt64) (ramAddr length : UInt16) (tag : UInt8) (ok : Bool)
  deriving DecidableEq

def Env.logged (env : Env σ) : Env (σ × List Act) where
  sendRequestToHost t a p n e s :=
    let r := env.sendRequestToHost t a p n e s.1
    (r.1, (r.2, s.2 ++ [.request t a p n e r.1]))
  sendResponse h p s := (env.sendResponse h p s.1, s.2)
  dmaRead a r n t s :=
    let x := env.dmaRead a r n t s.1
    (x.1, (x.2, s.2 ++ [.dma false a r n t x.1]))
  dmaWrite a r n t s :=
    let x := env.dmaWrite a r n t s.1
    (x.1, (x.2, s.2 ++ [.dma true a r n t x.1]))
  mmio w a n d s :=
    let r := env.mmio w a n d s.1
    (r.1, (r.2, s.2))
  reset s := (env.reset s.1, s.2)
  doorbellSeen s := env.doorbellSeen s.1
  clearDoorbell s := (env.clearDoorbell s.1, s.2)
  simTime s := env.simTime s.1

def turns (env : Env σ) (descBase cplBase : UInt64) (count : UInt32) : Nat → UInt32 → σ → List (List Act)
  | 0, _, _         => []
  | n + 1, index, s =>
    let t := runDescriptor env.logged descBase cplBase count index (s, [])
    t.env.2 :: if t.goOn then turns env descBase cplBase count n (index + 1) t.env.1 else []

/-- What the guard of `RunGenericDma` lets pass. -/
structure Guard (count tail head : UInt32) : Prop where
  one     : 1 ≤ count.toNat
  most    : count.toNat ≤ 1024
  ordered : head.toNat ≤ tail.toNat
  fits    : tail.toNat - head.toNat ≤ count.toNat

theorem guard_iff (count tail head : UInt32) :
    (count = 0 ∨ count > 1024 ∨ tail < head ∨ tail - head > count) ↔ ¬ Guard count tail head := by
  rw [← UInt32.toNat_inj, GT.gt, GT.gt, UInt32.lt_iff_toNat_lt, UInt32.lt_iff_toNat_lt, UInt32.lt_iff_toNat_lt,
    UInt32.toNat_sub, show (0 : UInt32).toNat = 0 from rfl, show (1024 : UInt32).toNat = 1024 from rfl]
  have hc := count.toNat_lt
  have ht := tail.toNat_lt
  have hh := head.toNat_lt
  constructor
  · rintro h ⟨h1, h2, h3, h4⟩
    omega
  · intro h
    refine Classical.byContradiction (fun hn => h ⟨?_, ?_, ?_, ?_⟩)
    · omega
    · omega
    · omega
    · omega

instance (count tail head : UInt32) : Decidable (Guard count tail head) :=
  decidable_of_iff (¬ (count = 0 ∨ count > 1024 ∨ tail < head ∨ tail - head > count))
    (by rw [guard_iff, Classical.not_not])

def iterations (env : Env σ) (descBase cplBase : UInt64) (count tail head : UInt32) (s : σ) : List (List Act) :=
  if Guard count tail head then turns env descBase cplBase count (tail.toNat - head.toNat) head s else []

/-! ## Keeping the log changes nothing -/

theorem logged_sim (env : Env σ) : env.logged.Sim env (fun x s => x.1 = s) where
  request t a p n e x s h := by
    subst h
    exact ⟨rfl, rfl⟩
  dmaRead a r n t x s h := by
    subst h
    exact ⟨rfl, rfl⟩
  dmaWrite a r n t x s h := by
    subst h
    exact ⟨rfl, rfl⟩

/-- **The log is only looked at.** -/
theorem runGenericDma_logged (env : Env σ) (descBase cplBase : UInt64) (count tail head : UInt32) (s : σ)
    (log : List Act) :
    let r := runGenericDma env.logged descBase cplBase count tail head (s, log)
    let r' := runGenericDma env descBase cplBase count tail head s
    r.ok = r'.ok ∧ r.head = r'.head ∧ r.executed = r'.executed ∧ r.env.1 = r'.env :=
  (logged_sim env).runGenericDma descBase cplBase count tail head rfl

theorem logged_shift (env : Env σ) (pre : List Act) :
    env.logged.Sim env.logged (fun x y => x.1 = y.1 ∧ y.2 = pre ++ x.2) where
  request t a p n e := by
    rintro ⟨s, l⟩ ⟨s', l'⟩ ⟨rfl, rfl⟩
    exact ⟨rfl, rfl, List.append_assoc _ _ _⟩
  dmaRead a r n t := by
    rintro ⟨s, l⟩ ⟨s', l'⟩ ⟨rfl, rfl⟩
    exact ⟨rfl, rfl, List.append_assoc _ _ _⟩
  dmaWrite a r n t := by
    rintro ⟨s, l⟩ ⟨s', l'⟩ ⟨rfl, rfl⟩
    exact ⟨rfl, rfl, List.append_assoc _ _ _⟩

theorem runLoop_log (env : Env σ) (descBase cplBase : UInt64) (count : UInt32) :
    ∀ (n : Nat) (index : UInt32) (s : σ) (l : List Act),
    (runLoop env.logged descBase cplBase count n index (s, l)).2.2.2 =
      l ++ (turns env descBase cplBase count n index s).flatten
  | 0, _, _, l         => (List.append_nil l).symm
  | n + 1, index, s, l => by
    have hstart : (s, ([] : List Act)).1 = (s, l).1 ∧ (s, l).2 = l ++ (s, ([] : List Act)).2 :=
      ⟨rfl, (List.append_nil l).symm⟩
    obtain ⟨-, hgo, henv, hlog⟩ := (logged_shift env l).runDescriptor descBase cplBase count index hstart
    rw [runLoop, turns]
    dsimp only
    rw [← hgo]
    split
    · generalize hx : (runDescriptor env.logged descBase cplBase count index (s, l)).env = x at henv hlog ⊢
      obtain ⟨x1, x2⟩ := x
      dsimp only at henv hlog ⊢
      rw [runLoop_log env descBase cplBase count n (index + 1) x1 x2, hlog, henv, List.flatten_cons, List.append_assoc]
    · rw [List.flatten_cons, List.flatten_nil, List.append_nil]
      exact hlog

/-- **The log of a run is that of its iterations.** -/
theorem runGenericDma_log (env : Env σ) (descBase cplBase : UInt64) (count tail head : UInt32) (s : σ) :
    (runGenericDma env.logged descBase cplBase count tail head (s, [])).env.2 =
      (iterations env descBase cplBase count tail head s).flatten := by
  unfold runGenericDma iterations
  by_cases hg : Guard count tail head
  · rw [if_neg (by rw [guard_iff]; exact not_not_intro hg), if_pos hg]
    exact runLoop_log env descBase cplBase count _ head s []
  · rw [if_pos ((guard_iff count tail head).2 hg), if_neg hg]
    rfl

/-! ## One descriptor -/

structure IsRecord (rsp : Message) : Prop where
  success : rsp.header.isStatus .success = true
  size    : rsp.payload.length = kDescBytes.toNat

instance (rsp : Message) : Decidable (IsRecord rsp) :=
  decidable_of_iff (rsp.header.isStatus .success = true ∧ rsp.payload.length = kDescBytes.toNat)
    ⟨fun h => ⟨h.1, h.2⟩, fun h => ⟨h.1, h.2⟩⟩

structure Passes (desc : List UInt8) : Prop where
  some   : readLe16 desc 12 ≠ 0
  most   : readLe16 desc 12 ≤ kMaxTransfer
  inside : (readLe32 desc 8).toNat + (readLe16 desc 12).toNat ≤ kRamBytes
  opcode : desc.getD 14 0 = 0 ∨ desc.getD 14 0 = 1

instance (desc : List UInt8) : Decidable (Passes desc) :=
  decidable_of_iff (readLe16 desc 12 ≠ 0 ∧ readLe16 desc 12 ≤ kMaxTransfer ∧
      (readLe32 desc 8).toNat + (readLe16 desc 12).toNat ≤ kRamBytes ∧ (desc.getD 14 0 = 0 ∨ desc.getD 14 0 = 1))
    ⟨fun h => ⟨h.1, h.2.1, h.2.2.1, h.2.2.2⟩, fun h => ⟨h.1, h.2, h.3, h.4⟩⟩

def described (desc : List UInt8) (ok : Bool) : Act :=
  .dma (desc.getD 14 0 ≠ 0) (readLe64 desc 0) (readLe32 desc 8).toUInt16 (readLe16 desc 12)
    (readLe32 desc 16).toUInt8 ok

/-- What becomes of the answer to a fetch: the contents of the completion, and the transfer. -/
inductive Carries : Option Message → Outcome → List Act → Prop
  | lost : Carries none {} []
  | refused (rsp : Message) (h : ¬ IsRecord rsp) : Carries (some rsp) { status := rsp.header.status } []
  | invalid (rsp : Message) (h : IsRecord rsp) (hp : ¬ Passes rsp.payload) :
      Carries (some rsp) ⟨6, 0, readLe32 rsp.payload 16, rsp.payload.getD 15 0, false⟩ []
  | failed (rsp : Message) (h : IsRecord rsp) (hp : Passes rsp.payload) :
      Carries (some rsp) ⟨1, 0, readLe32 rsp.payload 16, rsp.payload.getD 15 0, false⟩ [described rsp.payload false]
  | done (rsp : Message) (h : IsRecord rsp) (hp : Passes rsp.payload) :
      Carries (some rsp)
        ⟨0, (readLe16 rsp.payload 12).toUInt32, readLe32 rsp.payload 16, rsp.payload.getD 15 0, true⟩
        [described rsp.payload true]

theorem carries_result {rsp : Message} (hr : IsRecord rsp) (hp : Passes rsp.payload) (ok : Bool) :
    Carries (some rsp)
      (if ok then
        ⟨0, (readLe16 rsp.payload 12).toUInt32, readLe32 rsp.payload 16, rsp.payload.getD 15 0, true⟩
      else ⟨1, 0, readLe32 rsp.payload 16, rsp.payload.getD 15 0, false⟩)
      [described rsp.payload ok] := by
  cases ok with
  | false => exact .failed rsp hr hp
  | true  => exact .done rsp hr hp

theorem transfer_carries (env : Env σ) {rsp : Message} (hr : IsRecord rsp) (x : σ × List Act) :
    ∃ acts, (transfer env.logged rsp.payload x).2.2 = x.2 ++ acts ∧
      Carries (some rsp) (transfer env.logged rsp.payload x).1 acts := by
  unfold transfer
  dsimp only
  by_cases hp : Passes rsp.payload
  · have hpair : ∀ (ok : Bool) (a b : Outcome) (y : σ × List Act),
        (if ok then (a, y) else (b, y)) = (if ok then a else b, y) := by
      intro ok a b y
      cases ok <;> rfl
    rw [if_pos ⟨hp.some, hp.most, hp.inside, hp.opcode⟩, hpair]
    by_cases hop : rsp.payload.getD 14 0 = 0
    · rw [if_pos hop]
      refine ⟨[described rsp.payload _], ?_, carries_result hr hp _⟩
      simp only [described, hop, ne_eq, not_true_eq_false, decide_false]
      rfl
    · rw [if_neg hop]
      refine ⟨[described rsp.payload _], ?_, carries_result hr hp _⟩
      simp only [described, hop, ne_eq, not_false_eq_true, decide_true]
      rfl
  · rw [if_neg (fun h => hp ⟨h.1, h.2.1, h.2.2.1, h.2.2.2⟩)]
    exact ⟨[], (List.append_nil _).symm, .invalid rsp hr hp⟩

theorem execute_carries (env : Env σ) (answer : Option Message) (x : σ × List Act) :
    ∃ acts, (execute env.logged answer x).2.2 = x.2 ++ acts ∧ Carries answer (execute env.logged answer x).1 acts := by
  cases answer with
  | none     => exact ⟨[], (List.append_nil _).symm, .lost⟩
  | some rsp =>
    unfold execute
    dsimp only
    by_cases hr : IsRecord rsp
    · rw [if_pos ⟨hr.success, hr.size⟩]
      exact transfer_carries env hr x
    · rw [if_neg (fun h => hr ⟨h.1, h.2⟩)]
      exact ⟨[], (List.append_nil _).symm, .refused rsp hr⟩

/-- The log of an iteration. -/
structure Turned (descBase cplBase : UInt64) (slot index : UInt32) (answer : Option Message) (o : Outcome)
    (acts log : List Act) (goOn : Bool) : Prop where
  carries : Carries answer o acts
  log     : ∃ ack msix, log =
    .request .dmaReadReq (descBase + slot.toUInt64 * kDescBytes.toUInt64) [] kDescBytes true answer :: (acts ++
      .request .dmaWriteReq (cplBase + slot.toUInt64 * kCplBytes.toUInt64) (completion o index) kCplBytes true ack ::
        (if isSuccess ack = true ∧ o.flags &&& 1 ≠ 0 then [.request .msiX 0 [] 0 false msix] else [])) ∧
    goOn = (isSuccess ack && o.status = 0)

theorem runDescriptor_of (env : Env σ) (descBase cplBase : UInt64) (count index : UInt32) (s : σ)
    {fetch cpl : Option Message × σ} {out : Outcome × σ}
    (hf : env.sendRequestToHost .dmaReadReq (descBase + (index % count).toUInt64 * kDescBytes.toUInt64) [] kDescBytes
      true s = fetch)
    (ho : execute env fetch.1 fetch.2 = out)
    (hc : env.sendRequestToHost .dmaWriteReq (cplBase + (index % count).toUInt64 * kCplBytes.toUInt64)
      (completion out.1 index) kCplBytes true out.2 = cpl) :
    runDescriptor env descBase cplBase count index s =
      if !isSuccess cpl.1 then ⟨⟨index, out.1.transferred, out.1.status⟩, false, cpl.2⟩
      else ⟨⟨index, out.1.transferred, out.1.status⟩, out.1.status = 0,
        if out.1.flags &&& 1 ≠ 0 then (env.sendRequestToHost .msiX 0 [] 0 false cpl.2).2 else cpl.2⟩ := by
  subst hf ho hc
  rfl

theorem logged_request (env : Env σ) (t : MessageType) (a : UInt64) (p : List UInt8) (n : UInt32) (e : Bool) (s : σ)
    (l : List Act) :
    ∃ answer s', env.logged.sendRequestToHost t a p n e (s, l) = (answer, (s', l ++ [.request t a p n e answer])) :=
  ⟨_, _, rfl⟩

theorem runDescriptor_turned (env : Env σ) (descBase cplBase : UInt64) (count index : UInt32) (s : σ) :
    let t := runDescriptor env.logged descBase cplBase count index (s, [])
    let answer := (env.sendRequestToHost .dmaReadReq
      (descBase + (index % count).toUInt64 * kDescBytes.toUInt64) [] kDescBytes true s).1
    ∃ o acts, Turned descBase cplBase (index % count) index answer o acts t.env.2 t.goOn := by
  intro t answer
  have hfetch : ∃ s', env.logged.sendRequestToHost .dmaReadReq
      (descBase + (index % count).toUInt64 * kDescBytes.toUInt64) [] kDescBytes true (s, []) =
        (answer, (s', [.request .dmaReadReq (descBase + (index % count).toUInt64 * kDescBytes.toUInt64) [] kDescBytes
          true answer])) := ⟨_, rfl⟩
  obtain ⟨s', hfetch⟩ := hfetch
  obtain ⟨acts, hlog, hcarries⟩ := execute_carries env answer (s', [.request .dmaReadReq
    (descBase + (index % count).toUInt64 * kDescBytes.toUInt64) [] kDescBytes true answer])
  generalize hout : execute env.logged answer _ = out at hlog hcarries
  obtain ⟨o, x, l⟩ := out
  obtain ⟨ack, s₂, hcpl⟩ := logged_request env .dmaWriteReq (cplBase + (index % count).toUInt64 * kCplBytes.toUInt64)
    (completion o index) kCplBytes true x l
  obtain ⟨msix, s₃, hmsix⟩ := logged_request env .msiX 0 [] 0 false s₂
    (l ++ [.request .dmaWriteReq (cplBase + (index % count).toUInt64 * kCplBytes.toUInt64) (completion o index)
      kCplBytes true ack])
  have ht : t = _ := runDescriptor_of env.logged descBase cplBase count index (s, []) hfetch hout hcpl
  dsimp only at ht hlog
  refine ⟨o, acts, hcarries, ack, msix, ?_⟩
  rw [ht, hmsix, hlog]
  cases isSuccess ack with
  | false => exact ⟨by simp, by simp⟩
  | true  =>
    by_cases hflag : o.flags &&& 1 ≠ 0
    · simp [hflag]
    · simp [hflag]

/-! ## What a completion says -/

theorem status_completion (o : Outcome) (index : UInt32) : readLe16 (completion o index) 4 = o.status.toUInt16 := by
  have hcut : leBytes 2 o.status.toNat = leBytes 2 o.status.toUInt16.toNat := by
    rw [UInt32.toNat_toUInt16]
    exact (leBytes_mod 2 _).symm
  apply UInt16.toNat_inj.1
  rw [readLe16_eq _ _ (by rw [Driver.length_completion]; decide), Driver.completion_eq]
  have hpack : pack [(4, o.tag.toNat), (2, o.status.toNat), (2, 0), (4, o.bytes.toNat), (4, index.toNat)] =
      pack [(4, o.tag.toNat), (2, o.status.toUInt16.toNat), (2, 0), (4, o.bytes.toNat), (4, index.toNat)] := by
    simp only [pack, hcut]
  rw [hpack]
  exact leNat_field [(4, _)] _ (2, o.status.toUInt16.toNat) o.status.toUInt16.toNat_lt rfl

theorem tag_completion (o : Outcome) (index : UInt32) : readLe32 (completion o index) 0 = o.tag := by
  apply UInt32.toNat_inj.1
  rw [readLe32_eq, Driver.completion_eq]
  exact leNat_field [] _ (4, o.tag.toNat) o.tag.toNat_lt rfl

theorem bytes_completion (o : Outcome) (index : UInt32) : readLe32 (completion o index) 8 = o.bytes := by
  apply UInt32.toNat_inj.1
  rw [readLe32_eq, Driver.completion_eq]
  exact leNat_field [(4, _), (2, _), (2, _)] _ (4, o.bytes.toNat) o.bytes.toNat_lt rfl

def fetched : List Act → Option Message
  | .request _ _ _ _ _ answer :: _ => answer
  | _                              => none

def Act.completion : Act → Option (List UInt8)
  | .request .dmaWriteReq _ payload _ _ _ => some payload
  | _                                     => none

def Act.moved : Act → Bool
  | .dma _ _ _ _ _ ok => ok
  | _                 => false

def CarriedOut (acts : List Act) (rsp : Message) : Prop :=
  fetched acts = some rsp ∧ IsRecord rsp ∧ acts.any Act.moved = true

/-- The one completion of an iteration has status zero exactly if the descriptor was carried out, and then its length
and its tag. -/
def Truthful (acts : List Act) : Prop :=
  ∃ cpl, acts.filterMap Act.completion = [cpl] ∧ cpl.length = 16 ∧
    (readLe16 cpl 4 = 0 ↔ ∃ rsp, CarriedOut acts rsp) ∧
    (readLe16 cpl 4 = 0 → ∃ rsp, fetched acts = some rsp ∧
      readLe32 cpl 8 = (readLe16 rsp.payload 12).toUInt32 ∧ readLe32 cpl 0 = readLe32 rsp.payload 16)

/-- An answer that brings no record, with a status that is zero in the 16 bits of a completion. -/
def Hides (answer : Option Message) : Prop :=
  ∃ rsp, answer = some rsp ∧ ¬ IsRecord rsp ∧ rsp.header.status.toUInt16 = 0

theorem Carries.no_completion {answer : Option Message} {o : Outcome} {acts : List Act} (h : Carries answer o acts) :
    acts.filterMap Act.completion = [] := by
  cases h <;> rfl

section Turned

variable {descBase cplBase : UInt64} {slot index : UInt32} {answer : Option Message} {o : Outcome}
  {acts log : List Act} {goOn : Bool}

theorem Turned.read (h : Turned descBase cplBase slot index answer o acts log goOn) :
    fetched log = answer ∧ log.filterMap Act.completion = [completion o index] ∧
      log.any Act.moved = acts.any Act.moved := by
  obtain ⟨ack, msix, hlog, -⟩ := h.log
  subst hlog
  refine ⟨rfl, ?_, ?_⟩
  · rw [List.filterMap_cons_none rfl, List.filterMap_append, h.carries.no_completion, List.nil_append]
    split
    · rfl
    · rfl
  · rw [List.any_cons, List.any_append, List.any_cons]
    split
    · exact Bool.or_false _
    · exact Bool.or_false _

theorem Turned.truthful_iff (h : Turned descBase cplBase slot index answer o acts log goOn) :
    Truthful log ↔ ¬ Hides answer := by
  obtain ⟨hfetched, hcpl, hmoved⟩ := h.read
  have hiff : Truthful log ↔
      (o.status.toUInt16 = 0 ↔ ∃ rsp, answer = some rsp ∧ IsRecord rsp ∧ acts.any Act.moved = true) ∧
      (o.status.toUInt16 = 0 → ∃ rsp, answer = some rsp ∧
        o.bytes = (readLe16 rsp.payload 12).toUInt32 ∧ o.tag = readLe32 rsp.payload 16) := by
    simp only [Truthful, CarriedOut, hcpl, hfetched, hmoved, List.cons.injEq, and_true, exists_eq_left',
      Driver.length_completion, true_and, status_completion, bytes_completion, tag_completion]
  have hnone : ¬ (1 : UInt32).toUInt16 = 0 ∧ ¬ (6 : UInt32).toUInt16 = 0 := by decide
  rw [hiff]
  cases h.carries with
  | lost =>
    refine iff_of_true ⟨iff_of_false hnone.1 ?_, fun h0 => absurd h0 hnone.1⟩ ?_
    · rintro ⟨rsp, hrsp, -⟩
      cases hrsp
    · rintro ⟨rsp, hrsp, -⟩
      cases hrsp
  | refused rsp hr =>
    -- the status of the answer is passed on
    constructor
    · rintro ⟨h1, -⟩ ⟨rsp', hrsp, -, hzero⟩
      cases hrsp
      obtain ⟨rsp', hrsp, hrec, -⟩ := h1.1 hzero
      cases hrsp
      exact hr hrec
    · intro hh
      have hne : ¬ rsp.header.status.toUInt16 = 0 := fun h0 => hh ⟨rsp, rfl, hr, h0⟩
      refine ⟨iff_of_false hne ?_, fun h0 => absurd h0 hne⟩
      rintro ⟨rsp', -, -, hm⟩
      cases hm
  | invalid rsp hr hp =>
    refine iff_of_true ⟨iff_of_false hnone.2 ?_, fun h0 => absurd h0 hnone.2⟩ ?_
    · rintro ⟨rsp', -, -, hm⟩
      cases hm
    · rintro ⟨rsp', hrsp, hnot, -⟩
      cases hrsp
      exact hnot hr
  | failed rsp hr hp =>
    refine iff_of_true ⟨iff_of_false hnone.1 ?_, fun h0 => absurd h0 hnone.1⟩ ?_
    · rintro ⟨rsp', -, -, hm⟩
      cases hm
    · rintro ⟨rsp', hrsp, hnot, -⟩
      cases hrsp
      exact hnot hr
  | done rsp hr hp =>
    refine iff_of_true ⟨iff_of_true rfl ⟨rsp, rfl, hr, rfl⟩, fun _ => ⟨rsp, rfl, rfl, rfl⟩⟩ ?_
    rintro ⟨rsp', hrsp, hnot, -⟩
    cases hrsp
    exact hnot hr

end Turned

theorem turns_turned (env : Env σ) (descBase cplBase : UInt64) (count : UInt32) :
    ∀ (n : Nat) (index : UInt32) (s : σ), ∀ log ∈ turns env descBase cplBase count n index s,
      ∃ i answer o acts goOn, Turned descBase cplBase (i % count) i answer o acts log goOn
  | 0, _, _, _, hlog         => by cases hlog
  | n + 1, index, s, log, hlog => by
    rw [turns] at hlog
    rcases List.mem_cons.1 hlog with rfl | hrest
    · obtain ⟨o, acts, h⟩ := runDescriptor_turned env descBase cplBase count index s
      exact ⟨index, _, o, acts, _, h⟩
    · split at hrest
      · exact turns_turned env descBase cplBase count n (index + 1) _ log hrest
      · cases hrest

/-- **When completions tell the truth.**  The log of a run is that of its iterations, and the completion of an
iteration says zero exactly for a descriptor that was carried out, with its length and tag, unless the fetch was
answered without a record and with a status that is zero in the low 16 bits. -/
theorem completions_truthful_iff (env : Env σ) (descBase cplBase : UInt64) (count tail head : UInt32) (s : σ) :
    (runGenericDma env.logged descBase cplBase count tail head (s, [])).env.2 =
        (iterations env descBase cplBase count tail head s).flatten ∧
      ∀ log ∈ iterations env descBase cplBase count tail head s, Truthful log ↔ ¬ Hides (fetched log) := by
  refine ⟨runGenericDma_log env descBase cplBase count tail head s, fun log hlog => ?_⟩
  unfold iterations at hlog
  split at hlog
  · obtain ⟨i, answer, o, acts, goOn, h⟩ := turns_turned env descBase cplBase count _ head s log hlog
    rw [h.truthful_iff, h.read.1]
  · cases hlog

def Env.answering (rsp : Message) : Env Unit where
  sendRequestToHost _ _ _ _ _ _ := (some rsp, ())
  sendResponse _ _ _ := ()
  dmaRead _ _ _ _ _ := (true, ())
  dmaWrite _ _ _ _ _ := (true, ())
  mmio _ _ _ _ _ := (none, ())
  reset _ := ()
  doorbellSeen _ := false
  clearDoorbell _ := ()
  simTime _ := 0

/-- The answer to the fetch brings no descriptor and nothing is moved, but the completion says zero. -/
structure HidesFailure (rsp : Message) (log : List Act) : Prop where
  fetched : fetched log = some rsp
  failed  : ¬ IsRecord rsp
  zero    : (log.filterMap Act.completion).map (fun cpl => readLe16 cpl 4) = [0]
  moved   : log.any Act.moved = false

theorem HidesFailure.not_truthful {rsp : Message} {log : List Act} (h : HidesFailure rsp log) : ¬ Truthful log := by
  rintro ⟨cpl, hcpl, -, hiff, -⟩
  have hzero := h.zero
  rw [hcpl, List.map_singleton, List.cons.injEq] at hzero
  obtain ⟨rsp, -, -, hdone⟩ := hiff.1 hzero.1
  rw [h.moved] at hdone
  cases hdone

/-- SUCCESS without the record, and a status above 16 bits: both are completed with status zero, and nothing is moved.
-/
theorem completion_hides_failure :
    let short : Message := ⟨makeHeader .dmaReadRsp 2 0 0 .success 0 0 kFlagIsResponse, []⟩
    let wide : Message := ⟨{ makeHeader .dmaReadRsp 2 0 0 .success 0 0 kFlagIsResponse with status := 0x10000 }, []⟩
    (∃ log ∈ iterations (Env.answering short) 0x1000 0x2000 1 1 0 (), HidesFailure short log ∧ ¬ Truthful log) ∧
      ∃ log ∈ iterations (Env.answering wide) 0x1000 0x2000 1 1 0 (), HidesFailure wide log ∧ ¬ Truthful log := by
  intro short wide
  constructor
  · refine ⟨_, List.mem_cons_self, ?_⟩
    suffices h : HidesFailure short _ from ⟨h, h.not_truthful⟩
    exact ⟨by decide, by decide, by decide, by decide⟩
  · refine ⟨_, List.mem_cons_self, ?_⟩
    suffices h : HidesFailure wide _ from ⟨h, h.not_truthful⟩
    exact ⟨by decide, by decide, by decide, by decide⟩

/-! ## The window of the ring -/

/-- A fetch that brings a descriptor which passes the checks, a write that is acknowledged, a transfer that is done. -/
def Act.succeeds : Act → Bool
  | .request .dmaReadReq _ _ _ _ (some rsp) => IsRecord rsp ∧ Passes rsp.payload
  | .request .dmaReadReq _ _ _ _ none       => false
  | .request .dmaWriteReq _ _ _ _ answer    => isSuccess answer
  | .request _ _ _ _ _ _                    => true
  | .dma _ _ _ _ _ ok                       => ok

/-- The work on one index of the ring: its descriptor is read, the transfer is made, the completion is written, and an
interrupt is sent if the descriptor asks for it. -/
def Window (descBase cplBase : UInt64) (count index : Nat) (log : List Act) : Prop :=
  ∃ rsp ack msix, IsRecord rsp ∧ Passes rsp.payload ∧ isSuccess ack = true ∧ log =
    [.request .dmaReadReq (descBase + UInt64.ofNat (32 * (index % count))) [] 32 true (some rsp),
      described rsp.payload true,
      .request .dmaWriteReq (cplBase + UInt64.ofNat (16 * (index % count)))
        (pack [(4, (readLe32 rsp.payload 16).toNat), (2, 0), (2, 0), (4, (readLe16 rsp.payload 12).toNat), (4, index)])
        16 true ack] ++
      (if rsp.payload.getD 15 0 &&& 1 ≠ 0 then [.request .msiX 0 [] 0 false msix] else [])

theorem slot_address (base : UInt64) (count index : UInt32) (size : UInt32) (h : size.toNat < 2 ^ 16)
    (hc : count.toNat ≤ 1024) (h0 : 0 < count.toNat) :
    base + (index % count).toUInt64 * size.toUInt64 =
      base + UInt64.ofNat (size.toNat * (index.toNat % count.toNat)) := by
  have hlt := Nat.mod_lt index.toNat h0
  have hmul : index.toNat % count.toNat * size.toNat < 2 ^ 64 :=
    Nat.lt_of_lt_of_le (Nat.mul_lt_mul'' (show _ < 2 ^ 10 by omega) h) (by decide)
  congr 1
  apply UInt64.toNat_inj.1
  rw [UInt64.toNat_mul, UInt32.toNat_toUInt64, UInt32.toNat_toUInt64, UInt32.toNat_mod, Nat.mod_eq_of_lt hmul,
    UInt64.toNat_ofNat_of_lt' (by rw [Nat.mul_comm]; exact hmul), Nat.mul_comm]

/-- **An iteration in which everything succeeds** is the work on its index, and the loop goes on. -/
theorem Turned.window {descBase cplBase : UInt64} {count index : UInt32} {answer : Option Message} {o : Outcome}
    {acts log : List Act} {goOn : Bool} (hc : count.toNat ≤ 1024) (h0 : 0 < count.toNat)
    (h : Turned descBase cplBase (index % count) index answer o acts log goOn)
    (hok : ∀ a ∈ log, a.succeeds = true) :
    Window descBase cplBase count.toNat index.toNat log ∧ goOn = true := by
  obtain ⟨ack, msix, hlog, hgo⟩ := h.log
  rw [slot_address descBase count index kDescBytes (by decide) hc h0,
    slot_address cplBase count index kCplBytes (by decide) hc h0] at hlog
  subst hlog
  have hfetch := hok _ List.mem_cons_self
  have hack : isSuccess ack = true := hok _ (List.mem_cons_of_mem _ (List.mem_append_right acts List.mem_cons_self))
  have hacts : ∀ a ∈ acts, a.succeeds = true := fun a ha => hok a (List.mem_cons_of_mem _ (List.mem_append_left _ ha))
  cases h.carries with
  | lost => cases hfetch
  | refused rsp hr => exact absurd (of_decide_eq_true hfetch).1 hr
  | invalid rsp hr hp => exact absurd (of_decide_eq_true hfetch).2 hp
  | failed rsp hr hp => exact absurd (hacts _ (List.mem_singleton_self _)) nofun
  | done rsp hr hp =>
    refine ⟨⟨rsp, ack, msix, hr, hp, hack, ?_⟩, by rw [hgo, hack]; rfl⟩
    rw [Driver.completion_eq]
    simp only [hack, true_and, UInt16.toNat_toUInt32]
    rfl

theorem turns_window (env : Env σ) (descBase cplBase : UInt64) {count : UInt32} (hc : count.toNat ≤ 1024)
    (h0 : 0 < count.toNat) : ∀ (n : Nat) (index : UInt32) (s : σ), index.toNat + n < 2 ^ 32 →
    (∀ log ∈ turns env descBase cplBase count n index s, ∀ a ∈ log, a.succeeds = true) →
    (runLoop env.logged descBase cplBase count n index (s, [])).1 = true ∧
      (turns env descBase cplBase count n index s).length = n ∧
      ∀ k log, (turns env descBase cplBase count n index s)[k]? = some log →
        Window descBase cplBase count.toNat (index.toNat + k) log
  | 0, _, _, _, _             => ⟨rfl, rfl, fun _ _ h => by cases h⟩
  | n + 1, index, s, hlt, hok => by
    obtain ⟨o, acts, ht⟩ := runDescriptor_turned env descBase cplBase count index s
    have hnext : (index + 1).toNat = index.toNat + 1 := by
      rw [UInt32.toNat_add]
      exact Nat.mod_eq_of_lt (show index.toNat + 1 < 2 ^ 32 by omega)
    generalize htu : runDescriptor env.logged descBase cplBase count index (s, []) = t at ht
    rw [turns, htu] at hok ⊢
    obtain ⟨hwin, hgo⟩ := ht.window hc h0 (hok _ List.mem_cons_self)
    rw [hgo, if_pos rfl] at hok ⊢
    obtain ⟨hrun, hlen, hrest⟩ := turns_window env descBase cplBase hc h0 n (index + 1) t.env.1 (by omega)
      (fun log hlog => hok log (List.mem_cons_of_mem _ hlog))
    -- the rest of the loop starts from a log that is not empty
    have hstart : (t.env.1, ([] : List Act)).1 = t.env.1 ∧ t.env.2 = t.env.2 ++ (t.env.1, ([] : List Act)).2 :=
      ⟨rfl, (List.append_nil _).symm⟩
    obtain ⟨hshift, -, -⟩ := (logged_shift env t.env.2).runLoop descBase cplBase count n (index + 1) hstart
    refine ⟨?_, by rw [List.length_cons, hlen], ?_⟩
    · rw [runLoop, htu]
      dsimp only
      rw [hgo, if_pos rfl]
      exact hshift.symm.trans hrun
    · intro k log hk
      cases k with
      | zero   =>
        cases hk
        exact hwin
      | succ k =>
        have := hrest k log hk
        rw [hnext, Nat.add_right_comm] at this
        exact this

theorem window_slots_nodup {count head n : Nat} (h : n ≤ count) :
    ((List.range n).map (fun k => (head + k) % count)).Nodup := by
  refine List.Nodup.map_on ?_ List.nodup_range
  intro i hi j hj heq
  have hi := List.mem_range.1 hi
  have hj := List.mem_range.1 hj
  have hmod : i % count = j % count := Nat.ModEq.add_left_cancel' head heq
  rwa [Nat.mod_eq_of_lt (by omega), Nat.mod_eq_of_lt (by omega)] at hmod

end Verilator
end Vip
