import PcieVip.BridgeServe
/-!
# BridgeAnswers — what the cocotb bridge writes

One task is in `serve` and it takes up one message at a time, so the messages that want an answer get theirs in the
order in which they came, each one once, however many calls write between them.  A raised exception ends the task and
can leave the last of them without one.  A packed header is one of the device model's (`pack_ok`), which gives the
answers' fields.
-/
namespace Vip
namespace Bridge

open Ics (MessageType)
open Log Run

/-! ## A packed header -/

theorem structPack_inRange : ∀ {ws : List Nat} {vs : List Int} {bs : List UInt8}, structPack ws vs = .ok bs →
    List.Forall₂ (fun w v => 0 ≤ v ∧ v < 256 ^ w) ws vs
  | [], [], _, _           => .nil
  | [], _ :: _, _, h       => by cases h
  | _ :: _, [], _, h       => by cases h
  | w :: ws, v :: vs, _, h => by
    unfold structPack at h
    split at h
    · rename_i hv
      split at h
      · rename_i hrest
        exact .cons hv (structPack_inRange hrest)
      · cases h
    · cases h

theorem pyOr_pyOr (a b : Int) : pyOr (pyOr a b) b = pyOr a b := by
  unfold pyOr
  by_cases ha : a = 0
  · simp [ha]
  · simp [ha]

/-- The fields that packing wrote: `transfer_len` defaults to the payload's length. -/
def Header.sent (h : Header) : Header := { h with transferLen := pyOr h.transferLen h.payloadLen }

theorem ofNat16 {v : Int} (h : 0 ≤ v ∧ v < 256 ^ 2) : ((UInt16.ofNat v.toNat).toNat : Int) = v := by
  rw [UInt16.toNat_ofNat', Nat.mod_eq_of_lt (by omega)]
  omega

theorem ofNat32 {v : Int} (h : 0 ≤ v ∧ v < 256 ^ 4) : ((UInt32.ofNat v.toNat).toNat : Int) = v := by
  rw [UInt32.toNat_ofNat', Nat.mod_eq_of_lt (by omega)]
  omega

theorem ofNat64 {v : Int} (h : 0 ≤ v ∧ v < 256 ^ 8) : ((UInt64.ofNat v.toNat).toNat : Int) = v := by
  rw [UInt64.toNat_ofNat', Nat.mod_eq_of_lt (by omega)]
  omega

/-- **What packs is a header of the device model**, in its encoding. -/
theorem pack_ok {h : Header} {raw : List UInt8} (hp : h.pack = .ok raw) :
    ∃ m, raw = Qemu.micsEncodeHeader m ∧ ofMics m = h.sent := by
  have hrange := structPack_inRange hp
  simp only [headerFormat, formatWidth, List.map_cons, List.map_nil, List.forall₂_cons] at hrange
  obtain ⟨-, -, htype, hflags, -, hplen, htxn, hts, haddr, hbe, hst, -, hlen, -, -⟩ := hrange
  let m : Qemu.MicsHeader :=
    ⟨.ofNat h.msgType.toNat, .ofNat h.flags.toNat, .ofNat h.payloadLen.toNat, .ofNat h.txnId.toNat,
      .ofNat h.simTimestamp.toNat, .ofNat h.address.toNat, .ofNat h.byteEnable.toNat, .ofNat h.status.toNat,
      .ofNat (pyOr h.transferLen h.payloadLen).toNat⟩
  have hm : ofMics m = h.sent := by
    simp only [ofMics, m, Header.sent, ofNat16 htype, ofNat16 hflags, ofNat32 hplen, ofNat64 htxn, ofNat64 hts,
      ofNat64 haddr, ofNat64 hbe, ofNat32 hst, ofNat32 hlen]
  have hcond : m.transferLen ≠ 0 ∨ m.payloadLen = 0 := by
    by_cases hp0 : h.payloadLen = 0
    · have := congrArg Header.payloadLen hm
      simp only [ofMics, Header.sent, hp0] at this
      exact .inr (UInt32.toNat_inj.1 (Int.ofNat_inj.1 this))
    · refine .inl (fun h0 => hp0 ?_)
      have := congrArg Header.transferLen hm
      simp only [ofMics, Header.sent, h0] at this
      unfold pyOr at this
      split at this
      · rename_i hne
        exact absurd this.symm hne
      · exact this.symm
  refine ⟨m, ?_, hm⟩
  have hsame : h.sent.pack = h.pack := by
    simp only [Header.pack, Header.sent, pyOr_pyOr]
  rw [← hm, pack_ofMics m hcond, hp] at hsame
  exact (Except.ok.inj hsame).symm

/-! ## Answers -/

def Write.answer? (w : Write) : Option Nat :=
  match w.source with
  | .answer k => some k
  | _         => none

def State.answered (s : State) : List Nat := s.written.filterMap Write.answer?

def Msg.wantsAnswer (m : Msg) : Bool := m.answerType.isSome

/-- The message in the task's hands, while it waits for the callback. -/
def ServePc.owed : ServePc → List Nat
  | .calling k m => if m.wantsAnswer then [k] else []
  | _            => []

/-- Type, flag and identifier of the answer, and as much payload as its header says. -/
def Msg.AnsweredBy (m : Msg) (f : Frame) : Prop :=
  ∃ t h, m.answerType = some t ∧ f.raw = Qemu.micsEncodeHeader h ∧ h.type = t.code ∧ h.flags = Qemu.micsFlagResponse ∧
    (h.txnId.toNat : Int) = m.header.txnId ∧ f.payload.length = h.payloadLen.toNat

structure Served (s : State) : Prop where
  taken  : ∀ (k : Nat) (m : Msg), s.serve = .calling k m →
    s.received[k]? = some m ∧ m.isResponse = false ∧ m.isType .resetReq = false
  order  : ∃ lost, lost.length ≤ (if s.serve = .raised then 1 else 0) ∧
    s.answered ++ s.serve.owed ++ lost = places Msg.wantsAnswer s.received
  frames : ∀ w ∈ s.written, ∀ k, w.source = .answer k → ∃ m, s.received[k]? = some m ∧ m.AnsweredBy w.frame

theorem sendMessage_ok {h : Header} {payload : List UInt8} {f : Frame} (hs : sendMessage h payload = .ok f) :
    f.payload = payload ∧ (payload.length : Int) = h.payloadLen ∧
      ∃ m, f.raw = Qemu.micsEncodeHeader m ∧ ofMics m = h.sent := by
  unfold sendMessage at hs
  split at hs
  · cases hs
  · rename_i hlen
    split at hs
    · rename_i raw hraw
      cases hs
      exact ⟨rfl, not_not.1 hlen, pack_ok hraw⟩
    · cases hs

theorem answeredBy_of_send {m : Msg} {t : MessageType} {h : Header} {payload : List UInt8} {f : Frame}
    (ht : m.answerType = some t) (htype : h.msgType = code t) (hflags : h.flags = response)
    (htxn : h.txnId = m.header.txnId) (hs : sendMessage h payload = .ok f) : m.AnsweredBy f := by
  obtain ⟨rfl, hlen, mh, hraw, hmh⟩ := sendMessage_ok hs
  refine ⟨t, mh, ht, hraw, UInt16.toNat_inj.1 ?_, UInt16.toNat_inj.1 ?_, ?_, ?_⟩
  · exact Int.ofNat_inj.1 ((congrArg Header.msgType hmh).trans htype)
  · exact Int.ofNat_inj.1 ((congrArg Header.flags hmh).trans hflags)
  · exact (congrArg Header.txnId hmh).trans htxn
  · exact Int.ofNat_inj.1 (hlen.trans (congrArg Header.payloadLen hmh).symm)

theorem send_served {s : State} {k : Nat} {m : Msg} {t : MessageType} {h : Header} {payload : List UInt8}
    (hk : s.received[k]? = some m) (horder : s.answered ++ [k] = places Msg.wantsAnswer s.received)
    (hframes : ∀ w ∈ s.written, ∀ k, w.source = .answer k → ∃ m, s.received[k]? = some m ∧ m.AnsweredBy w.frame)
    (ht : m.answerType = some t) (htype : h.msgType = code t) (hflags : h.flags = response)
    (htxn : h.txnId = m.header.txnId) : Served (s.send k h payload) := by
  unfold State.send
  split
  · rename_i f hf
    refine ⟨fun _ _ hc => (by cases hc), ⟨[], Nat.zero_le _, ?_⟩, ?_⟩
    · simp only [State.answered, List.filterMap_append, ServePc.owed, List.append_nil]
      exact horder
    · intro w hw j hj
      rcases List.mem_append.1 hw with hw | hw
      · exact hframes w hw j hj
      · cases List.mem_singleton.1 hw
        cases hj
        exact ⟨m, hk, answeredBy_of_send ht htype hflags htxn hf⟩
  · refine ⟨fun _ _ hc => (by cases hc), ⟨[k], by simp, ?_⟩, hframes⟩
    simpa [State.answered, ServePc.owed] using horder

theorem Served.running {s : State} (h : Served s) (hr : s.serve ≠ .raised) :
    s.answered ++ s.serve.owed = places Msg.wantsAnswer s.received := by
  obtain ⟨lost, hlost, horder⟩ := h.order
  rw [if_neg hr] at hlost
  have : lost = [] := List.eq_nil_of_length_eq_zero (Nat.le_zero.1 hlost)
  rwa [this, List.append_nil] at horder

theorem Served.frames_concat {s : State} (h : Served s) (m : Msg) :
    ∀ w ∈ s.written, ∀ k, w.source = .answer k → ∃ m', (s.received ++ [m])[k]? = some m' ∧ m'.AnsweredBy w.frame := by
  intro w hw k hk
  obtain ⟨m', hm', hf⟩ := h.frames w hw k hk
  exact ⟨m', getElem?_concat_of_some hm' m, hf⟩

theorem Served.take {s s' : State} {m : Msg} (h : Served s) (hr : s.serve = .receiving)
    (hrec : s'.received = s.received ++ [m]) (hwritten : s'.written = s.written)
    (howed : s'.serve.owed = if m.wantsAnswer then [s.received.length] else [])
    (htaken : ∀ (k : Nat) (m' : Msg), s'.serve = .calling k m' →
      k = s.received.length ∧ m' = m ∧ m.isResponse = false ∧ m.isType .resetReq = false) : Served s' := by
  have horder := h.running (by rw [hr]; exact ServePc.noConfusion)
  rw [hr] at horder
  refine ⟨fun k m' hc => ?_, ⟨[], Nat.zero_le _, ?_⟩, ?_⟩
  · obtain ⟨rfl, rfl, hresp, hreset⟩ := htaken k m' hc
    exact ⟨by rw [hrec]; exact List.getElem?_concat_length, hresp, hreset⟩
  · rw [howed, hrec, places_concat, List.append_nil, ← horder, State.answered, State.answered, hwritten]
    simp only [ServePc.owed, List.append_nil]
  · rw [hrec, hwritten]
    exact h.frames_concat m

theorem wantsAnswer_of_response {m : Msg} (h : m.isResponse = true) : m.wantsAnswer = false := by
  simp [Msg.wantsAnswer, Msg.answerType, h]

theorem wantsAnswer_of_request {m : Msg} (h : m.isResponse = false) :
    m.wantsAnswer = (m.isType .mmioReadReq || m.isType .mmioWriteReq || m.isType .dmaReadReq || m.isType .dmaWriteReq ||
      m.isType .resetReq) := by
  unfold Msg.wantsAnswer Msg.answerType
  rw [h]
  cases m.isType .mmioReadReq <;> cases m.isType .mmioWriteReq <;> cases m.isType .dmaReadReq <;>
    cases m.isType .dmaWriteReq <;> cases m.isType .resetReq <;> rfl

theorem isType_of_ne {m : Msg} {a b : MessageType} (h : m.isType a = true) (hab : a ≠ b) : m.isType b = false := by
  refine Bool.eq_false_iff.2 (fun hb => hab ?_)
  simp only [Msg.isType, beq_iff_eq] at h hb
  have hcode := Int.ofNat_inj.1 (h.symm.trans hb)
  exact MessageType.code_injective a b (UInt16.toNat_inj.1 hcode)

theorem Served.receive {s : State} (h : Served s) (hr : s.serve = .receiving) (msixCb : Bool) (m : Msg) :
    Served (s.receive msixCb m) := by
  have hidle : ∀ s' : State, s'.serve = s.serve → s'.serve.owed = [] ∧ ∀ k m', s'.serve ≠ .calling k m' := by
    intro s' hs'
    rw [hs', hr]
    exact ⟨rfl, fun _ _ hc => by cases hc⟩
  unfold State.receive
  dsimp only
  split
  · rename_i hresp
    have hno : ∀ s' : State, s'.serve = s.serve → s'.received = s.received ++ [m] → s'.written = s.written →
        Served s' := by
      intro s' hs' hrec hw
      obtain ⟨howed, hcalling⟩ := hidle s' hs'
      refine h.take hr hrec hw ?_ (fun k m' hc => absurd hc (hcalling k m'))
      rw [howed, wantsAnswer_of_response hresp]
      rfl
    split
    · exact hno _ rfl rfl rfl
    · exact hno _ rfl rfl rfl
  · rename_i hresp
    have hresp := Bool.eq_false_iff.2 hresp
    split
    · rename_i htype
      have hwants : m.wantsAnswer = true := by rw [wantsAnswer_of_request hresp, htype, Bool.true_or]
      simp only [Bool.or_eq_true] at htype
      have hreset : m.isType .resetReq = false := by
        rcases htype with ((ht | ht) | ht) | ht <;> exact isType_of_ne ht (by decide)
      refine h.take hr rfl rfl (by simp [ServePc.owed, hwants]) ?_
      rintro k m' ⟨⟩
      exact ⟨rfl, rfl, hresp, hreset⟩
    · rename_i htype
      simp only [Bool.or_eq_true, not_or, Bool.not_eq_true] at htype
      obtain ⟨⟨⟨hmr, hmw⟩, hdr⟩, hdw⟩ := htype
      have hwants : m.wantsAnswer = m.isType .resetReq := by
        simp only [wantsAnswer_of_request hresp, hmr, hmw, hdr, hdw, Bool.false_or]
      split
      · rename_i hmsix
        have hreset := isType_of_ne hmsix (b := .resetReq) (by decide)
        rw [hreset] at hwants
        refine h.take hr rfl rfl ?_ ?_
        · cases msixCb <;> simp [ServePc.owed, hwants]
        · intro k m' hc
          cases msixCb with
          | false => cases hc
          | true  => cases hc; exact ⟨rfl, rfl, hresp, hreset⟩
      · split
        · rename_i hreset
          rw [hreset] at hwants
          have horder := h.running (by rw [hr]; exact ServePc.noConfusion)
          simp only [hr, ServePc.owed, List.append_nil] at horder
          refine send_served (m := m) (t := .resetRsp) List.getElem?_concat_length ?_ (h.frames_concat m) ?_ rfl rfl rfl
          · rw [places_concat, hwants, ← horder]
            rfl
          · simp [Msg.answerType, hresp, hmr, hmw, hdr, hdw, hreset]
        · rename_i hreset
          rw [Bool.eq_false_iff.2 hreset] at hwants
          split
          · exact h.take hr rfl rfl (by simp [ServePc.owed, hwants]) (fun _ _ hc => by cases hc)
          · obtain ⟨howed, hcalling⟩ := hidle { s with received := s.received ++ [m] } rfl
            refine h.take hr rfl rfl ?_ (fun k m' hc => absurd hc (hcalling k m'))
            rw [howed, hwants]
            rfl

theorem Served.callback {s : State} {k : Nat} {m : Msg} (h : Served s) (hc : s.serve = .calling k m)
    (data : List UInt8) (status : Int) : Served (s.callback k m data status) := by
  obtain ⟨hk, hresp, hreset⟩ := h.taken k m hc
  have horder := h.running (by rw [hc]; exact ServePc.noConfusion)
  have hsend : ∀ {t : MessageType} {hdr : Header} {payload : List UInt8}, m.answerType = some t → hdr.msgType = code t →
      hdr.flags = response → hdr.txnId = m.header.txnId → Served (s.send k hdr payload) := by
    intro t hdr payload ht
    have hwants : m.wantsAnswer = true := by rw [Msg.wantsAnswer, ht]; rfl
    rw [hc, ServePc.owed, hwants] at horder
    exact send_served hk horder h.frames ht
  unfold State.callback
  split
  · rename_i hmr
    exact hsend (t := .mmioReadRsp) (by simp [Msg.answerType, hresp, hmr]) rfl rfl rfl
  · rename_i hmr
    split
    · rename_i hmw
      exact hsend (t := .mmioWriteRsp) (by simp [Msg.answerType, hresp, hmr, hmw]) rfl rfl rfl
    · rename_i hmw
      split
      · rename_i hdr
        exact hsend (t := .dmaReadRsp) (by simp [Msg.answerType, hresp, hmr, hmw, hdr]) rfl rfl rfl
      · rename_i hdr
        split
        · rename_i hdw
          exact hsend (t := .dmaWriteRsp) (by simp [Msg.answerType, hresp, hmr, hmw, hdr, hdw]) rfl rfl rfl
        · rename_i hdw
          have hwants : m.wantsAnswer = false := by
            simp [wantsAnswer_of_request hresp, hmr, hmw, hdr, hdw, hreset]
          rw [hc, ServePc.owed, hwants] at horder
          exact ⟨fun _ _ hc => (by cases hc), ⟨[], Nat.zero_le _, by simpa [State.answered, ServePc.owed] using horder⟩,
            h.frames⟩

theorem Served.rest {s : State} (h : Served s) {pc : ServePc} (howed : pc.owed = []) (hs : s.serve.owed = [])
    (hr : s.serve ≠ .raised) (hpc : ∀ k m, pc ≠ .calling k m) : Served { s with serve := pc } := by
  refine ⟨fun k m hc => absurd hc (hpc k m), ⟨[], Nat.zero_le _, ?_⟩, h.frames⟩
  have horder := h.running hr
  rw [hs] at horder
  simp only [howed, List.append_nil] at horder ⊢
  exact horder

theorem Served.beside {s : State} (h : Served s) {w : Write} (hw : w.answer? = none) (hsrc : ∀ k, w.source ≠ .answer k)
    (pending : Int → Option Nat) (nextTxn : Int) (calls : List Call) :
    Served { s with pending, nextTxn, calls, written := s.written ++ [w] } := by
  refine ⟨h.taken, ?_, fun v hv k hk => ?_⟩
  · have hsame : (s.written ++ [w]).filterMap Write.answer? = s.answered := by
      rw [List.filterMap_append, List.filterMap_cons_none hw]
      exact List.append_nil _
    obtain ⟨lost, hlost, horder⟩ := h.order
    exact ⟨lost, hlost, (congrArg (· ++ s.serve.owed ++ lost) hsame).trans horder⟩
  · rcases List.mem_append.1 hv with hv | hv
    · exact h.frames v hv k hk
    · cases List.mem_singleton.1 hv
      exact absurd hk (hsrc k)

theorem served_init : Served {} where
  taken  := fun _ _ h => by cases h
  order  := ⟨[], Nat.zero_le _, rfl⟩
  frames := fun _ h => by cases h

/-- **Every step keeps the order of the answers.** -/
theorem Served.step {msixCb : Bool} {s s' : State} {e : Event} (h : Served s) (he : step msixCb s e = some s') :
    Served s' := by
  unfold Bridge.step at he
  split at he
  · cases he
    unfold State.request
    dsimp only
    split
    · exact h.beside rfl (fun _ hc => by cases hc) _ _ _
    · exact ⟨h.taken, h.order, h.frames⟩
  · split at he
    · cases he
    · obtain ⟨c, -, rfl⟩ := Option.map_eq_some_iff.1 he
      exact ⟨h.taken, h.order, h.frames⟩
  · split at he
    · cases he
    · rename_i hready
      simp only [not_or, not_not] at hready
      split at he
      · cases he
        exact h.rest rfl (by rw [hready.1]; rfl) (by rw [hready.1]; exact ServePc.noConfusion)
          (fun _ _ hc => by cases hc)
      · split at he
        · cases he
          exact h.receive hready.1 _ _
        · cases he
  · split at he
    · rename_i hr
      cases he
      exact h.rest rfl (by rw [hr]; rfl) (by rw [hr]; exact ServePc.noConfusion) (fun _ _ hc => by cases hc)
    · cases he
  · split at he
    · rename_i hc
      cases he
      exact h.callback hc _ _
    · cases he
  · split at he
    · rename_i k m hc
      cases he
      have horder := h.running (by rw [hc]; exact ServePc.noConfusion)
      refine ⟨fun _ _ hc => (by cases hc), ⟨s.serve.owed, ?_, ?_⟩, h.frames⟩
      · rw [hc, ServePc.owed]
        split <;> simp
      · simpa [State.answered, ServePc.owed] using horder
    · cases he
  · split at he
    · rename_i hd
      cases he
      refine h.rest ?_ (by rw [hd]; rfl) (by rw [hd]; exact ServePc.noConfusion) ?_
      · split <;> rfl
      · intro k m hc
        split at hc <;> cases hc
    · cases he
  · cases he
    exact h.beside rfl (fun _ hc => by cases hc) _ _ _

/-- **The bridge answers what wants an answer in the order in which it came, each message once**, whatever the calls
write between the answers; only the last one can be without its answer after an exception.  An answer carries the type
that its request asks for, the response flag and the request's identifier. -/
theorem serve_answers_in_order (msixCb : Bool) (es : List Event) (s : State) (h : run (step msixCb) {} es = some s) :
    (s.serve ≠ .raised → s.answered ++ s.serve.owed = places Msg.wantsAnswer s.received) ∧
    (∃ lost, lost.length ≤ 1 ∧ s.answered ++ s.serve.owed ++ lost = places Msg.wantsAnswer s.received) ∧
    (∀ w ∈ s.written, ∀ k, w.source = .answer k → ∃ m, s.received[k]? = some m ∧ m.AnsweredBy w.frame) := by
  have hs : Served s := run_invariant (fun _ _ _ hi he => hi.step he) es {} s served_init h
  refine ⟨hs.running, ?_, hs.frames⟩
  obtain ⟨lost, hlost, horder⟩ := hs.order
  exact ⟨lost, hlost.trans (by split <;> decide), horder⟩

/-- A read and a write, with a call of the bridge's own in between, and then a read whose callback raises. -/
theorem serve_answers_in_order_three :
    let req (type : UInt16) (txn : UInt64) : Frame := ⟨Qemu.micsEncodeHeader ⟨type, 0, 0, txn, 0, 0x14, 0, 0, 4⟩, []⟩
    let es : List Event :=
      [.recv (req 3 2), .request ⟨7, 0x4000, [], 64⟩, .callback [1, 0, 0, 0] 0, .drained true, .recv (req 5 3),
        .callback [] 0, .drained true, .recv (req 3 4), .callbackRaises]
    ∃ s, run (step false) {} es = some s ∧ s.serve = .raised ∧ s.answered = [0, 1] ∧
      (∃ lost, lost.length ≤ 1 ∧ s.answered ++ s.serve.owed ++ lost = places Msg.wantsAnswer s.received) := by
  intro req es
  have hrun : (run (step false) {} es).map (fun s => (s.serve, s.answered)) = some (.raised, [0, 1]) := by
    decide +kernel
  obtain ⟨s, hs, heq⟩ := Option.map_eq_some_iff.1 hrun
  simp only [Prod.mk.injEq] at heq
  exact ⟨s, hs, heq.1, heq.2, (serve_answers_in_order false es s hs).2.1⟩

end Bridge
end Vip
