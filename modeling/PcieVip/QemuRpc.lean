import PcieVip.QemuDevice
/-!
# QemuRpc — calls and responses are paired, whatever the backend sends

The invariant `Correlated` says who owns the slot, what was filed in it and for whom.  It is kept by the five things
that can happen to the slot: a call takes it (`Correlated.take`), works on with it (`Correlated.keep`), gives it back
(`Correlated.release`), is refused (`Correlated.refuse`), and the reader files a message (`Correlated.file`).
-/
namespace Vip
namespace Qemu

open Run (run set_getElem? snoc_getElem?)

/-- `m` was filed in the slot while the call number `i` owned it, and answers that call's request. -/
structure Filed (deliveries : List Delivery) (i : Nat) (c : RpcCall) (m : MicsMessage) : Prop where
  mem      : ⟨some i, m⟩ ∈ deliveries
  response : m.isResponse = true
  txnId    : m.h.txnId = c.header.txnId

structure Correlated (s : Device) : Prop where
  slot     : ∀ (i : Nat) (c : RpcCall), s.calls[i]? = some c → c.pc.owns = true →
    s.pendingActive = true ∧ s.pendingTxnId = c.header.txnId
  unique   : ∀ (i j : Nat) (c d : RpcCall), s.calls[i]? = some c → s.calls[j]? = some d → c.pc.owns = true →
    d.pc.owns = true → i = j
  active   : s.pendingActive = true → ∃ (i : Nat) (c : RpcCall), s.calls[i]? = some c ∧ c.pc.owns = true
  done     : s.pendingDone = true → ∃ (i : Nat) (c : RpcCall), s.calls[i]? = some c ∧ c.pc.owns = true ∧
    Filed s.deliveries i c s.pendingResponse
  returned : ∀ (i : Nat) (c : RpcCall) (m : MicsMessage), s.calls[i]? = some c → c.pc = .returned (some m) →
    Filed s.deliveries i c m ∧ m.h.type = c.request.expected.code ∧ m.h.status = micsStatusSuccess
  filed    : ∀ d ∈ s.deliveries, ∃ (i : Nat) (c : RpcCall), d.owner = some i ∧ s.calls[i]? = some c ∧
    d.message.h.txnId = c.header.txnId
  txnId    : ∀ (i : Nat) (c : RpcCall), s.calls[i]? = some c → c.header.txnId = UInt64.ofNat (2 + i)
  nextId   : s.nextTxnId = UInt64.ofNat (2 + s.calls.length)
  sent     : ∀ e ∈ s.sent, e.1 < s.calls.length

theorem correlated_init : Correlated Device.init where
  slot := fun _ _ h => by cases h
  unique := fun _ _ _ _ h => by cases h
  active := fun h => by cases h
  done := fun h => by cases h
  returned := fun _ _ _ h => by cases h
  filed := fun _ h => by cases h
  txnId := fun _ _ h => by cases h
  nextId := rfl
  sent := fun _ h => by cases h

/-! ## The list of calls -/

theorem set_keeps {calls : List RpcCall} {i : Nat} {c : RpcCall} (hc : calls[i]? = some c) (pc : RpcPc) {j : Nat}
    {d : RpcCall} (hd : calls[j]? = some d) :
    ∃ d' : RpcCall, (calls.set i { c with pc })[j]? = some d' ∧ d'.header = d.header := by
  by_cases hj : j = i
  · subst hj
    rw [hc] at hd
    cases hd
    exact ⟨_, (set_getElem? hc j _).2 (.inl ⟨rfl, rfl⟩), rfl⟩
  · exact ⟨d, (set_getElem? hc j d).2 (.inr ⟨hj, hd⟩), rfl⟩

/-! ## What can happen to the slot -/

theorem Correlated.set_common {s : Device} (hi : Correlated s) {i : Nat} {c : RpcCall} (hc : s.calls[i]? = some c)
    (pc : RpcPc) :
    (∀ d ∈ s.deliveries, ∃ (j : Nat) (d' : RpcCall), d.owner = some j ∧ (s.calls.set i { c with pc })[j]? = some d' ∧
        d.message.h.txnId = d'.header.txnId) ∧
      (∀ (j : Nat) (d : RpcCall), (s.calls.set i { c with pc })[j]? = some d → d.header.txnId = UInt64.ofNat (2 + j)) ∧
      s.nextTxnId = UInt64.ofNat (2 + (s.calls.set i { c with pc }).length) ∧
      (∀ e ∈ s.sent, e.1 < (s.calls.set i { c with pc }).length) := by
  refine ⟨fun d hd => ?_, fun j d hd => ?_, ?_, fun e he => ?_⟩
  · obtain ⟨j, d', ho, hj, ht⟩ := hi.filed d hd
    obtain ⟨d'', hj', hh⟩ := set_keeps hc pc hj
    exact ⟨j, d'', ho, hj', by rw [hh]; exact ht⟩
  · rcases (set_getElem? hc j d).1 hd with ⟨rfl, rfl⟩ | ⟨-, hd⟩
    · exact hi.txnId j c hc
    · exact hi.txnId j d hd
  · rw [List.length_set]; exact hi.nextId
  · rw [List.length_set]; exact hi.sent e he

theorem Correlated.set_returned {s : Device} (hi : Correlated s) {i : Nat} {c : RpcCall} (hc : s.calls[i]? = some c)
    {pc : RpcPc} (hpc : ∀ m, pc ≠ .returned (some m)) :
    ∀ (j : Nat) (d : RpcCall) (m : MicsMessage), (s.calls.set i { c with pc })[j]? = some d →
      d.pc = .returned (some m) → Filed s.deliveries j d m ∧ m.h.type = d.request.expected.code ∧
        m.h.status = micsStatusSuccess := by
  intro j d m hd hr
  rcases (set_getElem? hc j d).1 hd with ⟨-, rfl⟩ | ⟨-, hd⟩
  · exact absurd hr (hpc m)
  · exact hi.returned j d m hd hr

theorem Correlated.take {s : Device} (hi : Correlated s) {i : Nat} {c : RpcCall} (hc : s.calls[i]? = some c)
    (hfree : s.pendingActive = false) : Correlated ((s.take c.header.txnId).setPc i c .checking) := by
  have hnone : ∀ (j : Nat) (d : RpcCall), s.calls[j]? = some d → d.pc.owns = true → False := by
    intro j d hd ho
    rw [(hi.slot j d hd ho).1] at hfree
    cases hfree
  obtain ⟨hfiled, htxn, hnext, hsent⟩ := hi.set_common hc .checking
  refine ⟨fun j d hd ho => ?_, fun j k d d' hd hd' ho ho' => ?_, fun _ => ?_, fun h => ?_, ?_, hfiled, htxn, hnext,
    hsent⟩
  · rcases (set_getElem? hc j d).1 hd with ⟨-, rfl⟩ | ⟨-, hd⟩
    · exact ⟨rfl, rfl⟩
    · exact (hnone j d hd ho).elim
  · rcases (set_getElem? hc j d).1 hd with ⟨rfl, -⟩ | ⟨-, hd⟩
    · rcases (set_getElem? hc k d').1 hd' with ⟨rfl, -⟩ | ⟨-, hd'⟩
      · rfl
      · exact (hnone k d' hd' ho').elim
    · exact (hnone j d hd ho).elim
  · exact ⟨i, { c with pc := .checking }, (set_getElem? hc i _).2 (.inl ⟨rfl, rfl⟩), rfl⟩
  · cases h
  · exact hi.set_returned hc (fun _ h => by cases h)

theorem Correlated.keep {s : Device} (hi : Correlated s) {i : Nat} {c : RpcCall} (hc : s.calls[i]? = some c)
    (ho : c.pc.owns = true) {pc : RpcPc} (hpc : pc.owns = true) : Correlated (s.setPc i c pc) := by
  obtain ⟨hfiled, htxn, hnext, hsent⟩ := hi.set_common hc pc
  have hret : ∀ m, pc ≠ .returned (some m) := by rintro m rfl; cases hpc
  -- the owners are the same before and after
  have hback : ∀ (j : Nat) (d : RpcCall), (s.calls.set i { c with pc })[j]? = some d → d.pc.owns = true →
      ∃ d' : RpcCall, s.calls[j]? = some d' ∧ d'.pc.owns = true ∧ d'.header = d.header := by
    intro j d hd hod
    rcases (set_getElem? hc j d).1 hd with ⟨rfl, rfl⟩ | ⟨-, hd⟩
    · exact ⟨c, hc, ho, rfl⟩
    · exact ⟨d, hd, hod, rfl⟩
  refine ⟨fun j d hd hod => ?_, fun j k d d' hd hd' hod hod' => ?_, fun _ => ?_, fun h => ?_, ?_, hfiled, htxn, hnext,
    hsent⟩
  · obtain ⟨d', hd', hod', hh⟩ := hback j d hd hod
    rw [← hh]
    exact hi.slot j d' hd' hod'
  · obtain ⟨e, he, hoe, -⟩ := hback j d hd hod
    obtain ⟨e', he', hoe', -⟩ := hback k d' hd' hod'
    exact hi.unique j k e e' he he' hoe hoe'
  · exact ⟨i, { c with pc }, (set_getElem? hc i _).2 (.inl ⟨rfl, rfl⟩), hpc⟩
  · obtain ⟨j, d, hd, hod, hf⟩ := hi.done h
    have hj : j = i := hi.unique j i d c hd hc hod ho
    subst hj
    rw [hc] at hd
    cases hd
    exact ⟨j, { c with pc }, (set_getElem? hc j _).2 (.inl ⟨rfl, rfl⟩), hpc, hf.mem, hf.response, hf.txnId⟩
  · exact hi.set_returned hc hret

theorem Correlated.release {s : Device} (hi : Correlated s) {i : Nat} {c : RpcCall} (hc : s.calls[i]? = some c)
    (ho : c.pc.owns = true) {r : Option MicsMessage} (response : MicsMessage)
    (hr : ∀ m, r = some m → Filed s.deliveries i c m ∧ m.h.type = c.request.expected.code ∧
      m.h.status = micsStatusSuccess) :
    Correlated ({ s.release with pendingResponse := response }.setPc i c (.returned r)) := by
  obtain ⟨hfiled, htxn, hnext, hsent⟩ := hi.set_common hc (.returned r)
  have hnone : ∀ (j : Nat) (d : RpcCall), (s.calls.set i { c with pc := .returned r })[j]? = some d →
      d.pc.owns = true → False := by
    intro j d hd hod
    rcases (set_getElem? hc j d).1 hd with ⟨-, rfl⟩ | ⟨hne, hd⟩
    · cases hod
    · exact hne (hi.unique j i d c hd hc hod ho)
  refine ⟨fun j d hd hod => (hnone j d hd hod).elim, fun j _ d _ hd _ hod _ => (hnone j d hd hod).elim,
    fun h => (by cases h), fun h => (by cases h), fun j d m hd hret => ?_, hfiled, htxn, hnext, hsent⟩
  rcases (set_getElem? hc j d).1 hd with ⟨rfl, rfl⟩ | ⟨-, hd⟩
  · cases hret
    obtain ⟨hf, ht, hs⟩ := hr m rfl
    exact ⟨⟨hf.mem, hf.response, hf.txnId⟩, ht, hs⟩
  · exact hi.returned j d m hd hret

theorem Correlated.refuse {s : Device} (hi : Correlated s) {i : Nat} {c : RpcCall} (hc : s.calls[i]? = some c)
    (ho : c.pc.owns = false) : Correlated (s.setPc i c (.returned none)) := by
  obtain ⟨hfiled, htxn, hnext, hsent⟩ := hi.set_common hc (.returned none)
  have hback : ∀ (j : Nat) (d : RpcCall), (s.calls.set i { c with pc := .returned none })[j]? = some d →
      d.pc.owns = true →
      s.calls[j]? = some d := by
    intro j d hd hod
    rcases (set_getElem? hc j d).1 hd with ⟨-, rfl⟩ | ⟨-, hd⟩
    · cases hod
    · exact hd
  have hfwd : ∀ (j : Nat) (d : RpcCall), s.calls[j]? = some d → d.pc.owns = true →
      (s.calls.set i { c with pc := .returned none })[j]? = some d := by
    intro j d hd hod
    refine (set_getElem? hc j d).2 (.inr ⟨?_, hd⟩)
    rintro rfl
    rw [hc] at hd
    cases hd
    rw [ho] at hod
    cases hod
  refine ⟨fun j d hd hod => hi.slot j d (hback j d hd hod) hod,
    fun j k d d' hd hd' hod hod' => hi.unique j k d d' (hback j d hd hod) (hback k d' hd' hod') hod hod',
    fun h => ?_, fun h => ?_, hi.set_returned hc (fun _ h => by cases h), hfiled, htxn, hnext, hsent⟩
  · obtain ⟨j, d, hd, hod⟩ := hi.active h
    exact ⟨j, d, hfwd j d hd hod, hod⟩
  · obtain ⟨j, d, hd, hod, hf⟩ := hi.done h
    exact ⟨j, d, hfwd j d hd hod, hod, hf⟩

theorem Correlated.owner_eq {s : Device} (hi : Correlated s) {i : Nat} {c : RpcCall} (hc : s.calls[i]? = some c)
    (ho : c.pc.owns = true) : s.owner = some i := by
  cases hf : s.owner with
  | none =>
    have := List.findIdx?_eq_none_iff.1 hf c (List.mem_of_getElem? hc)
    rw [ho] at this
    cases this
  | some j =>
    obtain ⟨hlt, hp, -⟩ := List.findIdx?_eq_some_iff_getElem.1 hf
    exact congrArg some (hi.unique j i _ c (List.getElem?_eq_getElem hlt) hc hp ho)

theorem Filed.mono {ds : List Delivery} {i : Nat} {c : RpcCall} {m : MicsMessage} (h : Filed ds i c m) (d : Delivery) :
    Filed (ds ++ [d]) i c m := ⟨List.mem_append_left _ h.mem, h.response, h.txnId⟩

theorem Correlated.file {s : Device} (hi : Correlated s) (m : MicsMessage) : Correlated (s.file m) := by
  unfold Device.file
  split
  · rename_i hresp
    split
    · rename_i hcond
      rw [Bool.and_eq_true, beq_iff_eq] at hcond
      obtain ⟨i, c, hc, ho⟩ := hi.active hcond.1
      have htxn : m.h.txnId = c.header.txnId := hcond.2.trans (hi.slot i c hc ho).2
      have howner := hi.owner_eq hc ho
      refine { hi with done := fun _ => ?_, returned := fun j d m' hd hr => ?_, filed := fun d hd => ?_ }
      · refine ⟨i, c, hc, ho, ?_, hresp, htxn⟩
        rw [howner]
        exact List.mem_append_right _ List.mem_cons_self
      · obtain ⟨hf, hrest⟩ := hi.returned j d m' hd hr
        exact ⟨hf.mono _, hrest⟩
      · rcases List.mem_append.1 hd with hd | hd
        · exact hi.filed d hd
        · rw [List.mem_singleton.1 hd]
          exact ⟨i, c, howner, hc, htxn⟩
    · exact hi
  · split
    · exact { hi with }
    · exact hi

theorem Correlated.begin {s : Device} (hi : Correlated s) (r : RpcRequest) (now : UInt64) :
    Correlated (s.begin r now) := by
  unfold Device.begin
  split
  · exact hi
  · have hnew : ∀ (j : Nat) (d c : RpcCall), s.calls[j]? = some d → (s.calls ++ [c])[j]? = some d := by
      intro j d c hd
      rw [List.getElem?_append_left (List.getElem?_eq_some_iff.1 hd).1]
      exact hd
    refine
      { hi with
        slot := fun j d hd ho => ?_
        unique := fun j k d d' hd hd' ho ho' => ?_
        active := fun h => ?_
        done := fun h => ?_
        returned := fun j d m hd hr => ?_
        filed := fun d hd => ?_
        txnId := fun j d hd => ?_
        nextId := ?_
        sent := fun e he => ?_ }
    · rcases snoc_getElem? hd with hd | ⟨-, rfl⟩
      · exact hi.slot j d hd ho
      · cases ho
    · rcases snoc_getElem? hd with hd | ⟨-, rfl⟩
      · rcases snoc_getElem? hd' with hd' | ⟨-, rfl⟩
        · exact hi.unique j k d d' hd hd' ho ho'
        · cases ho'
      · cases ho
    · obtain ⟨j, d, hd, ho⟩ := hi.active h
      exact ⟨j, d, hnew j d _ hd, ho⟩
    · obtain ⟨j, d, hd, ho, hf⟩ := hi.done h
      exact ⟨j, d, hnew j d _ hd, ho, hf⟩
    · rcases snoc_getElem? hd with hd | ⟨-, rfl⟩
      · exact hi.returned j d m hd hr
      · cases hr
    · obtain ⟨j, d', ho, hd', ht⟩ := hi.filed d hd
      exact ⟨j, d', ho, hnew j d' _ hd', ht⟩
    · rcases snoc_getElem? hd with hd | ⟨rfl, rfl⟩
      · exact hi.txnId j d hd
      · refine Eq.trans ?_ hi.nextId
        cases r <;> rfl
    · dsimp only
      rw [hi.nextId, List.length_append, List.length_singleton, ← Nat.add_assoc,
        UInt64.ofNat_add (2 + s.calls.length) 1]
      rfl
    · dsimp only
      rw [List.length_append]
      exact Nat.lt_add_right 1 (hi.sent e he)

/-! ## Steps and runs -/

theorem rpcStep_correlated {s s' : Device} {i : Nat} {c : RpcCall} {e : RpcEvent} (hi : Correlated s)
    (hc : s.calls[i]? = some c) (h : rpcStep s i c e = some s') : Correlated s' := by
  unfold rpcStep at h
  split at h
  · rename_i hpc
    split at h
    · cases h; exact hi.refuse hc (by rw [hpc]; rfl)
    · rename_i hcond
      rw [Bool.or_eq_true, not_or] at hcond
      cases h
      exact hi.take hc (Bool.eq_false_iff.2 hcond.2)
  · rename_i hpc
    cases h
    exact hi.keep hc (by rw [hpc]; rfl) (by split <;> rfl)
  · rename_i tx hpc
    cases h
    have howns : (if (micsSend true c.header c.request.payload tx).ok = true then RpcPc.waiting else .failing).owns =
        true := by split <;> rfl
    have hk := hi.keep hc (by rw [hpc]; rfl) howns
    refine { hk with sent := fun e he => ?_ }
    rcases List.mem_append.1 he with he | he
    · exact hk.sent e he
    · rw [List.mem_singleton.1 he]
      dsimp only [Device.setPc]
      rw [List.length_set]
      exact (List.getElem?_eq_some_iff.1 hc).1
  · rename_i hpc
    have ho : c.pc.owns = true := by rw [hpc]; rfl
    split at h
    · cases h
    · cases h
      unfold Device.conclude
      split
      · rename_i hans
        simp only [Device.answers, Bool.and_eq_true, beq_iff_eq] at hans
        obtain ⟨j, d, hd, hod, hf⟩ := hi.done hans.1.1
        have hj : j = i := hi.unique j i d c hd hc hod ho
        subst hj
        rw [hc] at hd
        cases hd
        exact hi.release hc ho _ (fun m hm => by cases hm; exact ⟨hf, hans.1.2, hans.2⟩)
      · exact hi.release hc ho s.pendingResponse (fun m hm => by cases hm)
  · rename_i hpc
    cases h
    exact hi.release hc (by rw [hpc]; rfl) s.pendingResponse (fun m hm => by cases hm)
  · cases h

theorem deviceStep_correlated {s s' : Device} {e : DeviceEvent} (hi : Correlated s) (h : deviceStep s e = some s') :
    Correlated s' := by
  unfold deviceStep at h
  split at h
  · cases h; exact hi.begin _ _
  · split at h
    · cases h
    · rename_i c hc; exact rpcStep_correlated hi hc h
  · split at h
    · cases h; exact { hi with }
    · cases h
  · split at h
    · rename_i m _
      cases h
      exact { hi.file m with }
    · cases h
  · split at h
    · cases h; exact { hi with }
    · cases h

/-! ## After the disconnection -/

/-- The calls from number `n` on have done nothing but fail, and never wrote. -/
structure Late (n : Nat) (s : Device) : Prop where
  connected : s.connected = false
  calls     : ∀ (i : Nat) (c : RpcCall), n ≤ i → s.calls[i]? = some c → c.pc = .start ∨ c.pc = .returned none
  sent      : ∀ e ∈ s.sent, e.1 < n

theorem Late.set {n : Nat} {s : Device} (hl : Late n s) {i : Nat} {c : RpcCall} (hc : s.calls[i]? = some c)
    {pc : RpcPc} (hpc : n ≤ i → pc = .returned none) {j : Nat} {d : RpcCall} (hj : n ≤ j)
    (hd : (s.calls.set i { c with pc })[j]? = some d) : d.pc = .start ∨ d.pc = .returned none := by
  rcases (set_getElem? hc j d).1 hd with ⟨rfl, rfl⟩ | ⟨-, hd⟩
  · exact .inr (hpc hj)
  · exact hl.calls j d hj hd

theorem rpcStep_late {n : Nat} {s s' : Device} {i : Nat} {c : RpcCall} {e : RpcEvent} (hl : Late n s)
    (hc : s.calls[i]? = some c) (h : rpcStep s i c e = some s') : Late n s' := by
  -- a call that owns the slot is an early one
  have hearly : c.pc.owns = true → ¬ n ≤ i := by
    intro ho hn
    rcases hl.calls i c hn hc with hp | hp <;> · rw [hp] at ho; cases ho
  unfold rpcStep at h
  split at h
  · split at h
    · cases h
      exact { hl with calls := fun j d hj hd => hl.set hc (fun _ => rfl) hj hd }
    · rename_i hcond
      rw [hl.connected] at hcond
      exact absurd rfl hcond
  · rename_i hpc
    cases h
    exact { hl with calls := fun j d hj hd => hl.set hc (fun hn => absurd hn (hearly (by rw [hpc]; rfl))) hj hd }
  · rename_i tx hpc
    have hi := hearly (by rw [hpc]; rfl)
    cases h
    refine { hl with calls := fun j d hj hd => hl.set hc (fun hn => absurd hn hi) hj hd, sent := fun e he => ?_ }
    rcases List.mem_append.1 he with he | he
    · exact hl.sent e he
    · rw [List.mem_singleton.1 he]
      exact Nat.not_le.1 hi
  · rename_i hpc
    have hi := hearly (by rw [hpc]; rfl)
    split at h
    · cases h
    · cases h
      unfold Device.conclude
      split
      · exact { hl with calls := fun j d hj hd => hl.set hc (fun hn => absurd hn hi) hj hd }
      · exact { hl with calls := fun j d hj hd => hl.set hc (fun _ => rfl) hj hd }
  · cases h
    exact { hl with calls := fun j d hj hd => hl.set hc (fun _ => rfl) hj hd }
  · cases h

theorem deviceStep_late {n : Nat} {s s' : Device} {e : DeviceEvent} (hl : Late n s) (h : deviceStep s e = some s') :
    Late n s' := by
  unfold deviceStep at h
  split at h
  · cases h
    unfold Device.begin
    split
    · exact hl
    · refine { hl with calls := fun j d hj hd => ?_ }
      rcases snoc_getElem? hd with hd | ⟨-, rfl⟩
      · exact hl.calls j d hj hd
      · exact .inl rfl
  · split at h
    · cases h
    · rename_i c hc; exact rpcStep_late hl hc h
  · split at h
    · cases h; exact { hl with }
    · cases h
  · split at h
    · rename_i m _
      cases h
      unfold Device.file
      split
      · split
        · exact { hl with }
        · exact { hl with }
      · split
        · exact { hl with }
        · exact { hl with }
    · cases h
  · split at h
    · cases h; exact { hl with connected := rfl }
    · cases h

/-- **Calls and responses are paired soundly against any backend**, in every run with fewer than 2^64 requests: one
owner of the slot at a time; a call returns only a response that was filed while it owned the slot and carries its
identifier, the expected type and success; a message that carries a call's identifier is filed for no other call; and
once the device is disconnected, later calls fail without writing, so that BAR reads return all ones. -/
theorem rpc_correlation_sound (es : List DeviceEvent) (s : Device) (h : run deviceStep Device.init es = some s)
    (hlen : s.calls.length < 2 ^ 64) :
    (∀ (i j : Nat) (c d : RpcCall), s.calls[i]? = some c → s.calls[j]? = some d → c.pc.owns = true →
      d.pc.owns = true → i = j) ∧
    (∀ (i : Nat) (c : RpcCall) (m : MicsMessage), s.calls[i]? = some c → c.pc = .returned (some m) →
      ⟨some i, m⟩ ∈ s.deliveries ∧ m.isResponse = true ∧ m.h.txnId = c.header.txnId ∧
        m.h.type = c.request.expected.code ∧ m.h.status = micsStatusSuccess) ∧
    (∀ d ∈ s.deliveries, ∀ (i : Nat) (c : RpcCall), s.calls[i]? = some c → d.message.h.txnId = c.header.txnId →
      d.owner = some i) ∧
    (s.connected = false → ∀ (fs : List DeviceEvent) (t : Device), run deviceStep s fs = some t →
      ∀ (i : Nat) (c : RpcCall), s.calls.length ≤ i → t.calls[i]? = some c →
        (∀ e ∈ t.sent, e.1 ≠ i) ∧
        (c.pc = .returned none ∨ deviceStep t (.rpc i .lock) = some (t.setPc i c (.returned none))) ∧
        (∀ r size, c.pc = .returned r → mmioReadValue size r = 0xffffffffffffffff)) := by
  have hi := Run.run_invariant (fun _ _ _ hi he => deviceStep_correlated hi he) es _ s correlated_init h
  refine ⟨hi.unique, fun i c m hc hr => ?_, fun d hd i c hc ht => ?_, fun hdis fs t ht i c hn hc => ?_⟩
  · obtain ⟨hf, htype, hstatus⟩ := hi.returned i c m hc hr
    exact ⟨hf.mem, hf.response, hf.txnId, htype, hstatus⟩
  · -- fewer than 2^64 calls have different identifiers
    obtain ⟨j, c', ho, hc', ht'⟩ := hi.filed d hd
    have hid : UInt64.ofNat (2 + j) = UInt64.ofNat (2 + i) := by
      rw [← hi.txnId j c' hc', ← hi.txnId i c hc, ← ht', ht]
    have hj := (List.getElem?_eq_some_iff.1 hc').1
    have hi' := (List.getElem?_eq_some_iff.1 hc).1
    have hnat := congrArg UInt64.toNat hid
    simp only [UInt64.toNat_ofNat'] at hnat
    rw [ho]
    exact congrArg some (by omega)
  · have hl0 : Late s.calls.length s :=
      ⟨hdis, fun j d hj hd => absurd (List.getElem?_eq_some_iff.1 hd).1 (Nat.not_lt.2 hj), hi.sent⟩
    have hl := Run.run_invariant (fun _ _ _ hl he => deviceStep_late hl he) fs s t hl0 ht
    have hpc := hl.calls i c hn hc
    refine ⟨fun e he heq => ?_, ?_, fun r size hr => ?_⟩
    · have := hl.sent e he
      omega
    · rcases hpc with hpc | hpc
      · right
        simp only [deviceStep, hc, rpcStep, hpc, hl.connected, Bool.not_false, Bool.true_or, if_true]
      · exact .inl hpc
    · rcases hpc with hpc | hpc
      · rw [hpc] at hr; cases hr
      · rw [hpc] at hr; cases hr; rfl

/-- A BAR read is answered, after a stale response that is dropped; then the connection is lost and the next read
fails. -/
theorem rpc_correlation_sound_read :
    let stale : MicsMessage := ⟨⟨4, 1, 4, 1, 0, 0x1c, 0, 0, 4⟩, [9, 9, 9, 9]⟩
    let answer : MicsMessage := ⟨⟨4, 1, 4, 2, 0, 0x1c, 0, 0, 4⟩, [1, 0, 0, 0]⟩
    let ready : List Ics.PollRet := [.revents false false false true]
    let es : List DeviceEvent :=
      [.begin (.read 0x1c 4) 0, .rpc 0 .lock, .rpc 0 .check, .rpc 0 (.write [⟨ready, [.wrote 64]⟩]), .recv stale, .file,
        .recv answer, .file, .rpc 0 (.finish false), .readerExit]
    let fs : List DeviceEvent := [.begin (.read 0x1c 4) 0, .rpc 1 .lock]
    ∃ s t, run deviceStep Device.init es = some s ∧ run deviceStep s fs = some t ∧
      s.calls.map (·.pc) = [.returned (some answer)] ∧ ⟨some 0, answer⟩ ∈ s.deliveries ∧
      t.calls.map (·.pc) = [.returned (some answer), .returned none] ∧ (∀ e ∈ t.sent, e.1 ≠ 1) := by
  intro stale answer ready es fs
  have hrun : (run deviceStep Device.init es).bind (fun s => (run deviceStep s fs).map (fun t => (s, t))) =
      some ((run deviceStep Device.init es).getD {}, (run deviceStep Device.init (es ++ fs)).getD {}) := by
    decide +kernel
  obtain ⟨s, hs, hrun⟩ := Option.bind_eq_some_iff.1 hrun
  obtain ⟨t, ht, hst⟩ := Option.map_eq_some_iff.1 hrun
  have hs' : s = (run deviceStep Device.init es).getD {} := congrArg Prod.fst hst
  have ht' : t = (run deviceStep Device.init (es ++ fs)).getD {} := congrArg Prod.snd hst
  have hpcs : s.calls.map (·.pc) = [.returned (some answer)] := by rw [hs']; decide +kernel
  have hpct : t.calls.map (·.pc) = [.returned (some answer), .returned none] := by rw [ht']; decide +kernel
  have hdis : s.connected = false := by rw [hs']; decide +kernel
  have hls : s.calls.length = 1 := by simpa using congrArg List.length hpcs
  have hlt : t.calls.length = 2 := by simpa using congrArg List.length hpct
  obtain ⟨-, hret, -, hlate⟩ := rpc_correlation_sound es s hs (by rw [hls]; decide)
  obtain ⟨c, hc, hpc⟩ := List.map_eq_singleton_iff.1 hpcs
  exact ⟨s, t, hs, ht, hpcs, (hret 0 c answer (by rw [hc]; rfl) hpc).1, hpct,
    (hlate hdis fs t ht 1 _ (Nat.le_of_eq hls) (List.getElem?_eq_getElem (by rw [hlt]; decide))).1⟩

end Qemu
end Vip
