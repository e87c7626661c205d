import PcieVip.PendingTable
import PcieVip.QemuRpc
/-!
# Duplicates — a second response to one request

Neither `Complete` nor the reader of the device model looks whether a response is there already: between the first
response and the waiter's wake-up a second one takes its place, and in the device model the payload of the first is
lost.  In runs where no response meets one that is waiting to be fetched, at most one is accepted for each
registration, the waiter gets that one, and whatever comes later is refused and released (`duplicates_refused`).
-/
namespace Vip

/-! ## The pending table -/

namespace Ics

open Run (run Along)

variable {α : Type}

/-- A response was accepted only by an entry that had none. -/
def Once : List (Entry α) → Prop
  | []                     => True
  | .completed t _ ok :: L => (ok = true → replay L t = some none) ∧ Once L
  | .returned _ _ :: L     => Once L
  | .registered _ :: L     => Once L
  | .cancelled :: L        => Once L

theorem Once.tail {e : Entry α} {L : List (Entry α)} (h : Once (e :: L)) : Once L := by
  cases e with
  | registered t => exact h
  | completed t m ok => exact h.2
  | returned t r => exact h
  | cancelled => exact h

theorem Once.suffix : ∀ (post : List (Entry α)) {L : List (Entry α)}, Once (post ++ L) → Once L
  | [], _, h        => h
  | _ :: post, _, h => Once.suffix post h.tail

/-- The entry says nothing new of the identifier: it neither registers it nor accepts a response to it. -/
def Entry.Quiet (t : UInt64) (x : Entry α) : Prop := x ≠ .registered t ∧ ∀ m, x ≠ .completed t m true

section Replay

variable {t : UInt64}

theorem quiet_registered {u : UInt64} (h : ¬ t = u) : (Entry.registered u : Entry α).Quiet t :=
  ⟨fun he => h (by cases he; rfl), fun _ he => by cases he⟩

theorem quiet_completed {u : UInt64} {m : α} {ok : Bool} (h : ¬ (t = u ∧ ok = true)) :
    (Entry.completed u m ok).Quiet t :=
  ⟨fun he => (by cases he), fun _ he => h (by cases he; exact ⟨rfl, rfl⟩)⟩

theorem quiet_returned {u : UInt64} {r : Option α} : (Entry.returned u r).Quiet t :=
  ⟨fun he => (by cases he), fun _ he => by cases he⟩

theorem registered_of_waiting : ∀ {L : List (Entry α)}, replay L t = some none →
    ∃ B C, L = B ++ .registered t :: C ∧ ∀ x ∈ B, x.Quiet t
  | [], h                      => by cases h
  | .registered u :: L, h      => by
    rw [replay] at h
    split at h
    · rename_i hu
      exact ⟨[], L, by rw [hu, List.nil_append], fun _ hx => by cases hx⟩
    · rename_i hu
      obtain ⟨B, C, rfl, hB⟩ := registered_of_waiting h
      exact ⟨.registered u :: B, C, rfl, List.forall_mem_cons.2 ⟨quiet_registered hu, hB⟩⟩
  | .completed u m ok :: L, h  => by
    rw [replay] at h
    split at h
    · cases h
    · rename_i hu
      obtain ⟨B, C, rfl, hB⟩ := registered_of_waiting h
      exact ⟨.completed u m ok :: B, C, rfl, List.forall_mem_cons.2 ⟨quiet_completed hu, hB⟩⟩
  | .returned u r :: L, h      => by
    rw [replay] at h
    split at h
    · cases h
    · obtain ⟨B, C, rfl, hB⟩ := registered_of_waiting h
      exact ⟨.returned u r :: B, C, rfl, List.forall_mem_cons.2 ⟨quiet_returned, hB⟩⟩
  | .cancelled :: L, h         => by cases h

theorem accepted_of_replay {m : α} : ∀ {L : List (Entry α)}, Genuine L → replay L t = some (some m) →
    ∃ B C, L = B ++ .completed t m true :: C ∧ ∀ x ∈ B, x.Quiet t
  | [], _, h                      => by cases h
  | .registered u :: L, hg, h     => by
    rw [replay] at h
    split at h
    · cases h
    · rename_i hu
      obtain ⟨B, C, rfl, hB⟩ := accepted_of_replay hg.tail h
      exact ⟨.registered u :: B, C, rfl, List.forall_mem_cons.2 ⟨quiet_registered hu, hB⟩⟩
  | .completed u m' ok :: L, hg, h => by
    rw [replay] at h
    split at h
    · rename_i hu
      cases h
      exact ⟨[], L, by rw [hu.1, hu.2, List.nil_append], fun _ hx => by cases hx⟩
    · rename_i hu
      obtain ⟨B, C, rfl, hB⟩ := accepted_of_replay hg.tail h
      exact ⟨.completed u m' ok :: B, C, rfl, List.forall_mem_cons.2 ⟨quiet_completed hu, hB⟩⟩
  | .returned u r :: L, hg, h     => by
    rw [replay] at h
    split at h
    · cases h
    · obtain ⟨B, C, rfl, hB⟩ := accepted_of_replay hg.tail h
      exact ⟨.returned u r :: B, C, rfl, List.forall_mem_cons.2 ⟨quiet_returned, hB⟩⟩
  | .cancelled :: L, _, h         => by cases h

theorem not_waiting {X : List (Entry α)} (hX : replay X t ≠ some none) :
    ∀ {B : List (Entry α)}, .registered t ∉ B → replay (B ++ X) t ≠ some none
  | [], _                      => hX
  | .registered u :: B, hB     => by
    rw [List.mem_cons, not_or] at hB
    rw [List.cons_append, replay, if_neg (fun hu => hB.1 (by rw [hu]))]
    exact not_waiting hX hB.2
  | .completed u m ok :: B, hB => by
    rw [List.mem_cons, not_or] at hB
    rw [List.cons_append, replay]
    split
    · intro h
      cases h
    · exact not_waiting hX hB.2
  | .returned u r :: B, hB     => by
    rw [List.mem_cons, not_or] at hB
    rw [List.cons_append, replay]
    split
    · intro h
      cases h
    · exact not_waiting hX hB.2
  | .cancelled :: B, _         => fun h => by cases h

/-- **No second response is accepted before the next registration.** -/
theorem Once.refused {later between earlier : List (Entry α)} {m m' : α} {ok : Bool}
    (h : Once (later ++ .completed t m ok :: (between ++ .completed t m' true :: earlier)))
    (hb : .registered t ∉ between) : ok = false := by
  have hwaits := (Once.suffix later h).1
  have hholds : replay (.completed t m' true :: earlier) t ≠ some none := by
    rw [replay, if_pos ⟨rfl, rfl⟩]
    intro h
    cases h
  cases ok with
  | false => rfl
  | true  => exact absurd (hwaits rfl) (not_waiting hholds hb)

theorem replay_accepted {m : α} {C : List (Entry α)} : ∀ {B : List (Entry α)},
    Once (B ++ .completed t m true :: C) → (∀ x ∈ B, x ≠ .registered t ∧ ¬ x.Removes t) →
      replay (B ++ .completed t m true :: C) t = some (some m)
  | [], _, _                       => if_pos ⟨rfl, rfl⟩
  | .registered u :: B, ho, hB     => by
    obtain ⟨⟨hx, -⟩, hB⟩ := List.forall_mem_cons.1 hB
    rw [List.cons_append, replay, if_neg (fun hu => hx (by rw [hu]))]
    exact replay_accepted ho.tail hB
  | .completed u m' ok :: B, ho, hB => by
    obtain ⟨-, hB⟩ := List.forall_mem_cons.1 hB
    have hok : u = t → ok = false := by
      rintro rfl
      have ho : Once ([] ++ .completed u m' ok :: (B ++ .completed u m true :: C)) := ho
      exact ho.refused (fun hr => (hB _ hr).1 rfl)
    rw [List.cons_append, replay, if_neg (fun hu => by rw [hok hu.1.symm] at hu; cases hu.2)]
    exact replay_accepted ho.tail hB
  | .returned u r :: B, ho, hB     => by
    obtain ⟨⟨-, hx⟩, hB⟩ := List.forall_mem_cons.1 hB
    rw [List.cons_append, replay, if_neg (fun hu => hx hu.symm)]
    exact replay_accepted ho.tail hB
  | .cancelled :: B, _, hB         => absurd trivial (List.forall_mem_cons.1 hB).1.2

end Replay

/-- No response meets one that is waiting to be fetched. -/
def Fresh (s : TableState α) : TableEvent α → Prop
  | .complete t _ => ((s.pending.pending t).join).isNone = true
  | _             => True

instance (s : TableState α) (e : TableEvent α) : Decidable (Fresh s e) :=
  match e with
  | .complete t _ => inferInstanceAs (Decidable (((s.pending.pending t).join).isNone = true))
  | .register _   => isTrue trivial
  | .cancelAll    => isTrue trivial
  | .waitFor _    => isTrue trivial
  | .wake _ _     => isTrue trivial
  | .call _       => isTrue trivial
  | .send _ _     => isTrue trivial

theorem enter_once {s : TableState α} (h : Once s.log) (i : Nat) (c : SendCall α) (t : UInt64) (drop : Bool) :
    Once (s.enter i c t drop).log := by
  unfold TableState.enter
  split
  · exact h
  · exact h

theorem sendRequestStep_once {s s' : TableState α} {i : Nat} {c : SendCall α} {e : SendEvent} (h : Once s.log)
    (he : sendRequestStep s i c e = some s') : Once s'.log := by
  unfold sendRequestStep at he
  split at he
  · cases he
    exact h
  · cases he
    exact h
  · cases he
    split
    · exact h
    · exact h
  · split at he
    · cases he
      exact enter_once h _ _ _ _
    · cases he
      exact h
  · split at he
    · cases he
      exact h
    · cases he
  · cases he

theorem tableStep_once {s s' : TableState α} {e : TableEvent α} (hi : TableInv s) (h : Once s.log) (hf : Fresh s e)
    (he : tableStep s e = some s') : Once s'.log := by
  unfold tableStep at he
  split at he
  · cases he
    exact h
  · rename_i t m
    cases he
    refine ⟨fun hok => ?_, h⟩
    rw [← hi.table]
    have hjoin : ((s.pending.pending t).join).isNone = true := hf
    change (s.pending.complete t m).1 = true at hok
    unfold PendingRequestTable.complete at hok
    cases hp : s.pending.pending t with
    | none   => rw [hp] at hok; cases hok
    | some r =>
      rw [hp] at hjoin
      cases r with
      | none   => rfl
      | some _ => cases hjoin
  · cases he
    exact h
  · split at he
    · cases he
      exact h
    · cases he
      exact h
  · split at he
    · cases he
    · split at he
      · cases he
        exact h
      · cases he
  · cases he
    exact h
  · split at he
    · cases he
    · exact sendRequestStep_once h he

structure AcceptsOnce (L : List (Entry α)) : Prop where
  /-- After an accepted response and before the next registration every response is refused. -/
  refused  : ∀ (later between earlier : List (Entry α)) (t : UInt64) (m m' : α) (ok : Bool),
    L = later ++ .completed t m ok :: (between ++ .completed t m' true :: earlier) → .registered t ∉ between →
      ok = false
  /-- What the waiter gets is the one response that was accepted since the registration. -/
  first    : ∀ (later earlier : List (Entry α)) (t : UInt64) (m : α), L = later ++ .returned t (some m) :: earlier →
    ∃ B C D : List (Entry α), earlier = B ++ .completed t m true :: (C ++ .registered t :: D) ∧ ∀ x ∈ B ++ C, x.Quiet t
  /-- And it gets it, unless the entry was removed before. -/
  received : ∀ (later B C : List (Entry α)) (t : UInt64) (m : α) (r : Option α),
    L = later ++ .returned t r :: (B ++ .completed t m true :: C) → (∀ x ∈ B, x ≠ .registered t ∧ ¬ x.Removes t) →
      r = some m

theorem acceptsOnce {L : List (Entry α)} (hg : Genuine L) (ho : Once L) : AcceptsOnce L := by
  refine ⟨?_, ?_, ?_⟩
  · rintro later between earlier t m m' ok rfl hb
    exact ho.refused hb
  · rintro later earlier t m rfl
    have hgr : Genuine (.returned t (some m) :: earlier) := Genuine.suffix later hg
    obtain ⟨B, X, rfl, hB⟩ := accepted_of_replay hgr.2 (Option.join_eq_some_iff.1 hgr.1.symm)
    have hX : Once (.completed t m true :: X) := Once.suffix B (Once.suffix later ho).tail
    obtain ⟨C, D, rfl, hC⟩ := registered_of_waiting (hX.1 rfl)
    refine ⟨B, C, D, rfl, fun x hx => ?_⟩
    rcases List.mem_append.1 hx with hx | hx
    · exact hB x hx
    · exact hC x hx
  · rintro later B C t m r rfl hB
    have hgr : Genuine (.returned t r :: (B ++ .completed t m true :: C)) := Genuine.suffix later hg
    rw [hgr.1, replay_accepted (Once.suffix later ho).tail hB]
    rfl

/-- **The table**, in every run along which no response meets another. -/
theorem table_accepts_once {es : List (TableEvent α)} {s : TableState α}
    (h : run tableStep TableState.init es = some s) (hf : Along tableStep Fresh TableState.init es) :
    AcceptsOnce s.log := by
  have hi : TableInv s ∧ Once s.log := by
    refine Run.run_invariant_along (I := fun s => TableInv s ∧ Once s.log) ?_ es _ s ⟨tableInv_init, trivial⟩ hf h
    intro s e s' hi hfe he
    exact ⟨(tableStep_inv hi.1 he).table, tableStep_once hi.1 hi.2 hfe he⟩
  exact acceptsOnce hi.1.genuine hi.2

end Ics

/-! ## The slot of the device model -/

namespace Qemu

open Run (run Along set_getElem? snoc_getElem?)

/-- At most one message was filed for each call, and it is in the slot while the call owns it. -/
structure FiledOnce (s : Device) : Prop where
  owners  : (s.deliveries.map (·.owner)).Nodup
  none    : ∀ (i : Nat) (c : RpcCall), s.calls[i]? = some c → c.pc = .start → ∀ d ∈ s.deliveries, d.owner ≠ some i
  waiting : ∀ (i : Nat) (c : RpcCall), s.calls[i]? = some c → c.pc.owns = true → ∀ d ∈ s.deliveries, d.owner = some i →
    s.pendingDone = true ∧ s.pendingResponse = d.message

theorem FiledOnce.move {s s' : Device} (h : FiledOnce s) {i : Nat} {c : RpcCall} (hc : s.calls[i]? = some c)
    {pc : RpcPc} (hcalls : s'.calls = s.calls.set i { c with pc }) (hdeliveries : s'.deliveries = s.deliveries)
    (hpc : pc ≠ .start)
    (howner : pc.owns = true → ∀ d ∈ s.deliveries, d.owner = some i →
      s'.pendingDone = true ∧ s'.pendingResponse = d.message)
    (hothers : ∀ (j : Nat) (d : RpcCall), j ≠ i → s.calls[j]? = some d → d.pc.owns = true →
      s'.pendingDone = s.pendingDone ∧ s'.pendingResponse = s.pendingResponse) : FiledOnce s' := by
  refine ⟨by rw [hdeliveries]; exact h.owners, fun j d hd hp => ?_, fun j d hd ho e he hj => ?_⟩
  · rw [hcalls] at hd
    rw [hdeliveries]
    rcases (set_getElem? hc j d).1 hd with ⟨-, rfl⟩ | ⟨-, hd⟩
    · exact absurd hp hpc
    · exact h.none j d hd hp
  · rw [hcalls] at hd
    rw [hdeliveries] at he
    rcases (set_getElem? hc j d).1 hd with ⟨rfl, rfl⟩ | ⟨hne, hd⟩
    · exact howner ho e he hj
    · obtain ⟨hdone, hresponse⟩ := hothers j d hne hd ho
      rw [hdone, hresponse]
      exact h.waiting j d hd ho e he hj

theorem rpcStep_filedOnce {s s' : Device} {i : Nat} {c : RpcCall} {e : RpcEvent} (hi : Correlated s) (h : FiledOnce s)
    (hc : s.calls[i]? = some c) (he : rpcStep s i c e = some s') : FiledOnce s' := by
  -- no other call owns the slot beside the one that steps
  have hsole : c.pc.owns = true → ∀ (j : Nat) (d : RpcCall), j ≠ i → s.calls[j]? = some d → d.pc.owns = true → False :=
    fun ho j d hne hd hod => hne (hi.unique j i d c hd hc hod ho)
  unfold rpcStep at he
  split at he
  · rename_i hpc
    split at he
    · cases he
      exact h.move hc rfl rfl nofun nofun (fun _ _ _ _ _ => ⟨rfl, rfl⟩)
    · rename_i hcond
      rw [Bool.or_eq_true, not_or] at hcond
      cases he
      refine h.move hc rfl rfl nofun (fun _ d hd hj => absurd hj (h.none i c hc hpc d hd)) (fun j d _ hd ho => ?_)
      exact absurd (hi.slot j d hd ho).1 hcond.2
  · rename_i hpc
    have ho : c.pc.owns = true := by rw [hpc]; rfl
    cases he
    refine h.move hc rfl rfl ?_ (fun _ => h.waiting i c hc ho) (fun _ _ _ _ _ => ⟨rfl, rfl⟩)
    split
    · nofun
    · nofun
  · rename_i tx hpc
    have ho : c.pc.owns = true := by rw [hpc]; rfl
    cases he
    refine h.move hc rfl rfl ?_ (fun _ => h.waiting i c hc ho) (fun _ _ _ _ _ => ⟨rfl, rfl⟩)
    split
    · nofun
    · nofun
  · rename_i hpc
    have ho : c.pc.owns = true := by rw [hpc]; rfl
    split at he
    · cases he
    · cases he
      unfold Device.conclude
      split
      · exact h.move hc rfl rfl nofun nofun (fun j d hne hd hod => (hsole ho j d hne hd hod).elim)
      · exact h.move hc rfl rfl nofun nofun (fun j d hne hd hod => (hsole ho j d hne hd hod).elim)
  · rename_i hpc
    have ho : c.pc.owns = true := by rw [hpc]; rfl
    cases he
    exact h.move hc rfl rfl nofun nofun (fun j d hne hd hod => (hsole ho j d hne hd hod).elim)
  · cases he

/-- A response that the reader puts into the slot. -/
def Device.matches (s : Device) (m : MicsMessage) : Bool :=
  m.isResponse && (s.pendingActive && m.h.txnId == s.pendingTxnId)

theorem file_filedOnce {s : Device} (hi : Correlated s) (h : FiledOnce s) {m : MicsMessage}
    (hf : s.matches m = true → s.pendingDone = false) : FiledOnce (s.file m) := by
  unfold Device.file
  split
  · rename_i hresp
    split
    · rename_i hcond
      have hdone : s.pendingDone = false := hf (by rw [Device.matches, hresp, hcond]; rfl)
      obtain ⟨i, c, hc, ho⟩ := hi.active (Bool.and_eq_true_iff.1 hcond).1
      have howner := hi.owner_eq hc ho
      -- the owner has no message yet
      have hfresh : ∀ d ∈ s.deliveries, d.owner ≠ some i := by
        intro d hd hj
        rw [(h.waiting i c hc ho d hd hj).1] at hdone
        cases hdone
      refine ⟨?_, fun j d hd hp e he => ?_, fun j d hd hod e he hj => ?_⟩
      · dsimp only
        rw [howner, List.map_append, List.nodup_append]
        refine ⟨h.owners, List.nodup_cons.2 ⟨List.not_mem_nil, List.nodup_nil⟩, fun a ha b hb => ?_⟩
        obtain ⟨d, hd, rfl⟩ := List.mem_map.1 ha
        rw [List.mem_singleton.1 hb]
        exact hfresh d hd
      · rcases List.mem_append.1 he with he | he
        · exact h.none j d hd hp e he
        · rw [List.mem_singleton.1 he]
          dsimp only
          rw [howner]
          rintro ⟨⟩
          rw [hc] at hd
          cases hd
          rw [hp] at ho
          cases ho
      · have hji : j = i := hi.unique j i d c hd hc hod ho
        rcases List.mem_append.1 he with he | he
        · exact absurd (hj.trans (congrArg some hji)) (hfresh e he)
        · rw [List.mem_singleton.1 he]
          exact ⟨rfl, rfl⟩
    · exact h
  · split
    · exact { h with }
    · exact h

theorem begin_filedOnce {s : Device} (hi : Correlated s) (h : FiledOnce s) (r : RpcRequest) (now : UInt64) :
    FiledOnce (s.begin r now) := by
  unfold Device.begin
  split
  · exact h
  · refine { h with none := fun j d hd hp e he => ?_, waiting := fun j d hd ho e he hj => ?_ }
    · rcases snoc_getElem? hd with hd | ⟨rfl, -⟩
      · exact h.none j d hd hp e he
      · obtain ⟨k, d', hk, hd', -⟩ := hi.filed e he
        rw [hk]
        rintro ⟨⟩
        exact absurd (List.getElem?_eq_some_iff.1 hd').1 (Nat.lt_irrefl _)
    · rcases snoc_getElem? hd with hd | ⟨-, rfl⟩
      · exact h.waiting j d hd ho e he hj
      · cases ho

def Device.overwrites (s : Device) : Bool :=
  match s.reader with
  | .holding m => s.matches m && s.pendingDone
  | _          => false

/-- No response is filed over another. -/
def Single (s : Device) (e : DeviceEvent) : Prop := e = .file → s.overwrites = false

instance (s : Device) (e : DeviceEvent) : Decidable (Single s e) :=
  inferInstanceAs (Decidable (e = .file → s.overwrites = false))

theorem Single.pending {s : Device} {e : DeviceEvent} (h : Single s e) (he : e = .file) {m : MicsMessage}
    (hm : s.reader = .holding m) (hmatch : s.matches m = true) : s.pendingDone = false := by
  have ho := h he
  rw [Device.overwrites, hm] at ho
  dsimp only at ho
  rw [hmatch, Bool.true_and] at ho
  exact ho

theorem deviceStep_filedOnce {s s' : Device} {e : DeviceEvent} (hi : Correlated s) (h : FiledOnce s) (hs : Single s e)
    (he : deviceStep s e = some s') : FiledOnce s' := by
  unfold deviceStep at he
  split at he
  · cases he
    exact begin_filedOnce hi h _ _
  · split at he
    · cases he
    · rename_i c hc
      exact rpcStep_filedOnce hi h hc he
  · split at he
    · cases he
      exact { h with }
    · cases he
  · split at he
    · rename_i m hm
      cases he
      exact { file_filedOnce hi h (hs.pending rfl hm) with }
    · cases he
  · split at he
    · cases he
      exact { h with }
    · cases he

/-! ## Where the payloads are -/

/-- The device, and what became of each message: they are numbered as the reader receives them. -/
structure Custody where
  device   : Device := Device.init
  received : Nat := 0
  held     : Option Nat := none
  slot     : Option Nat := none
  /-- Passed on, to a caller or to the bottom half. -/
  given    : List Nat := []
  /-- Released by `mics_message_clear`. -/
  cleared  : List Nat := []
  /-- Overwritten in the slot. -/
  lost     : List Nat := []
  /-- The responses that were not put into the slot. -/
  refused  : List Nat := []

/-- The reader is done with what it holds. -/
def Custody.file (k : Custody) (m : MicsMessage) : Custody :=
  if k.device.matches m then { k with held := none, slot := k.held, lost := k.lost ++ k.slot.toList }
  else if m.isResponse then
    { k with held := none, cleared := k.cleared ++ k.held.toList, refused := k.refused ++ k.held.toList }
  else if m.isWork then { k with held := none, given := k.given ++ k.held.toList }
  else { k with held := none, cleared := k.cleared ++ k.held.toList }

/-- A call clears the slot when it takes it, and moves the message out when it returns it. -/
def Custody.rpc (k : Custody) (c : RpcCall) (e : RpcEvent) : Custody :=
  match c.pc, e with
  | .start, .lock       =>
    if !k.device.connected || k.device.pendingActive then k
    else { k with slot := none, cleared := k.cleared ++ k.slot.toList }
  | .waiting, .finish _ => if k.device.answers c then { k with slot := none, given := k.given ++ k.slot.toList } else k
  | _, _                => k

def Custody.follow (k : Custody) (e : DeviceEvent) : Custody :=
  match e with
  | .rpc i e =>
    match k.device.calls[i]? with
    | none   => k
    | some c => k.rpc c e
  | .recv _  => { k with received := k.received + 1, held := some k.received }
  | .file    =>
    match k.device.reader with
    | .holding m => k.file m
    | _          => k
  | _        => k

def custodyStep (k : Custody) (e : DeviceEvent) : Option Custody :=
  (deviceStep k.device e).map (fun s => { k.follow e with device := s })

def Custody.all (k : Custody) : List Nat := k.held.toList ++ k.slot.toList ++ k.given ++ k.cleared ++ k.lost

/-- Nothing is lost, refused responses are released, and everything received is in one place. -/
structure Custody.Tidy (k : Custody) : Prop where
  lost    : k.lost = []
  refused : k.refused ⊆ k.cleared
  all     : k.all.Perm (List.range k.received)

structure Kept (k : Custody) : Prop where
  correlated : Correlated k.device
  filed      : FiledOnce k.device
  tidy       : k.Tidy
  idle       : k.device.reader = .receiving → k.held = none
  empty      : k.device.pendingActive = true → k.device.pendingDone = false → k.slot = none

theorem file_all (k : Custody) (m : MicsMessage) : (k.file m).all.Perm k.all := by
  unfold Custody.file
  rw [List.perm_iff_count]
  intro n
  split
  · simp only [Custody.all, List.count_append, Option.toList_none, List.count_nil]
    omega
  · split
    · simp only [Custody.all, List.count_append, Option.toList_none, List.count_nil]
      omega
    · split
      · simp only [Custody.all, List.count_append, Option.toList_none, List.count_nil]
        omega
      · simp only [Custody.all, List.count_append, Option.toList_none, List.count_nil]
        omega

theorem rpc_all (k : Custody) (c : RpcCall) (e : RpcEvent) : (k.rpc c e).all.Perm k.all := by
  unfold Custody.rpc
  rw [List.perm_iff_count]
  intro n
  split
  · split
    · rfl
    · simp only [Custody.all, List.count_append, Option.toList_none, List.count_nil]
      omega
  · split
    · simp only [Custody.all, List.count_append, Option.toList_none, List.count_nil]
      omega
    · rfl
  · rfl

theorem Custody.Tidy.file {k : Custody} (h : k.Tidy) {m : MicsMessage}
    (hm : k.device.matches m = true → k.slot = none) : (k.file m).Tidy := by
  suffices hrest : (k.file m).lost = [] ∧ (k.file m).refused ⊆ (k.file m).cleared ∧
      (k.file m).received = k.received from
    ⟨hrest.1, hrest.2.1, by rw [hrest.2.2]; exact (file_all k m).trans h.all⟩
  unfold Custody.file
  split
  · rename_i hmatch
    refine ⟨?_, h.refused, rfl⟩
    dsimp only
    rw [h.lost, hm hmatch]
    rfl
  · split
    · refine ⟨h.lost, ?_, rfl⟩
      exact List.append_subset.2 ⟨List.subset_append_of_subset_left _ h.refused, List.subset_append_right _ _⟩
    · split
      · exact ⟨h.lost, h.refused, rfl⟩
      · exact ⟨h.lost, List.subset_append_of_subset_left _ h.refused, rfl⟩

theorem Custody.Tidy.rpc {k : Custody} (h : k.Tidy) (c : RpcCall) (e : RpcEvent) : (k.rpc c e).Tidy := by
  suffices hrest : (k.rpc c e).lost = [] ∧ (k.rpc c e).refused ⊆ (k.rpc c e).cleared ∧
      (k.rpc c e).received = k.received from
    ⟨hrest.1, hrest.2.1, by rw [hrest.2.2]; exact (rpc_all k c e).trans h.all⟩
  unfold Custody.rpc
  split
  · split
    · exact ⟨h.lost, h.refused, rfl⟩
    · exact ⟨h.lost, List.subset_append_of_subset_left _ h.refused, rfl⟩
  · split
    · exact ⟨h.lost, h.refused, rfl⟩
    · exact ⟨h.lost, h.refused, rfl⟩
  · exact ⟨h.lost, h.refused, rfl⟩

theorem rpc_empty {k : Custody} (hk : Kept k) {i : Nat} {c : RpcCall} {e : RpcEvent} {s : Device}
    (he : rpcStep k.device i c e = some s) :
    (s.reader = k.device.reader ∧ (k.rpc c e).held = k.held) ∧
      (s.pendingActive = true → s.pendingDone = false → (k.rpc c e).slot = none) := by
  unfold rpcStep at he
  unfold Custody.rpc
  split at he
  · rename_i hpc
    split at he
    · rename_i hcond
      cases he
      rw [hpc]
      dsimp only
      rw [if_pos hcond]
      exact ⟨⟨rfl, rfl⟩, hk.empty⟩
    · rename_i hcond
      cases he
      rw [hpc]
      dsimp only
      rw [if_neg hcond]
      exact ⟨⟨rfl, rfl⟩, fun _ _ => rfl⟩
  · rename_i hpc
    cases he
    rw [hpc]
    exact ⟨⟨rfl, rfl⟩, hk.empty⟩
  · rename_i hpc
    cases he
    rw [hpc]
    exact ⟨⟨rfl, rfl⟩, hk.empty⟩
  · rename_i hpc
    split at he
    · cases he
    · cases he
      rw [hpc]
      unfold Device.conclude
      dsimp only
      split
      · exact ⟨⟨rfl, rfl⟩, nofun⟩
      · exact ⟨⟨rfl, rfl⟩, nofun⟩
  · rename_i hpc
    cases he
    rw [hpc]
    exact ⟨⟨rfl, rfl⟩, nofun⟩
  · cases he

theorem file_empty {k : Custody} (hk : Kept k) (m : MicsMessage) :
    (k.file m).held = none ∧
      ((k.device.file m).pendingActive = true → (k.device.file m).pendingDone = false → (k.file m).slot = none) := by
  unfold Custody.file Device.file Device.matches
  cases hresp : m.isResponse with
  | false =>
    cases m.isWork with
    | false => exact ⟨rfl, hk.empty⟩
    | true  => exact ⟨rfl, hk.empty⟩
  | true  =>
    cases k.device.pendingActive && m.h.txnId == k.device.pendingTxnId with
    | false => exact ⟨rfl, hk.empty⟩
    | true  => exact ⟨rfl, nofun⟩

theorem begin_slot (s : Device) (r : RpcRequest) (now : UInt64) :
    (s.begin r now).reader = s.reader ∧ (s.begin r now).pendingActive = s.pendingActive ∧
      (s.begin r now).pendingDone = s.pendingDone := by
  unfold Device.begin
  split
  · exact ⟨rfl, rfl, rfl⟩
  · exact ⟨rfl, rfl, rfl⟩

theorem follow_rpc {k : Custody} {i : Nat} {c : RpcCall} (hc : k.device.calls[i]? = some c) (e : RpcEvent) :
    k.follow (.rpc i e) = k.rpc c e := by
  rw [Custody.follow, hc]

theorem follow_file {k : Custody} {m : MicsMessage} (hm : k.device.reader = .holding m) :
    k.follow .file = k.file m := by
  rw [Custody.follow, hm]

theorem custodyStep_kept {k k' : Custody} {e : DeviceEvent} (hk : Kept k) (hs : Single k.device e)
    (he : custodyStep k e = some k') : Kept k' := by
  obtain ⟨s, hdev, rfl⟩ := Option.map_eq_some_iff.1 he
  have hc : Correlated s := deviceStep_correlated hk.correlated hdev
  have hf : FiledOnce s := deviceStep_filedOnce hk.correlated hk.filed hs hdev
  unfold deviceStep at hdev
  split at hdev
  · rename_i r now
    cases hdev
    obtain ⟨hreader, hactive, hdone⟩ := begin_slot k.device r now
    refine ⟨hc, hf, ⟨hk.tidy.lost, hk.tidy.refused, hk.tidy.all⟩, ?_, ?_⟩
    · rw [hreader]
      exact hk.idle
    · rw [hactive, hdone]
      exact hk.empty
  · rename_i i e
    split at hdev
    · cases hdev
    · rename_i c hci
      rw [follow_rpc hci]
      obtain ⟨⟨hreader, hheld⟩, hempty⟩ := rpc_empty hk hdev
      have ht := hk.tidy.rpc c e
      refine ⟨hc, hf, ⟨ht.lost, ht.refused, ht.all⟩, fun hr => ?_, hempty⟩
      exact hheld.trans (hk.idle (hreader.symm.trans hr))
  · split at hdev
    · rename_i hr
      cases hdev
      refine ⟨hc, hf, ⟨hk.tidy.lost, hk.tidy.refused, ?_⟩, nofun, hk.empty⟩
      have hall := hk.tidy.all
      dsimp only [Custody.all, Custody.follow] at hall ⊢
      rw [hk.idle hr] at hall
      rw [List.range_succ]
      refine (List.Perm.cons k.received hall).trans ?_
      exact (List.perm_append_singleton _ _).symm
    · cases hdev
  · split at hdev
    · rename_i m hm
      cases hdev
      rw [follow_file hm]
      obtain ⟨hheld, hempty⟩ := file_empty hk m
      have ht : (k.file m).Tidy := by
        refine hk.tidy.file (fun hmatch => hk.empty ?_ (hs.pending rfl hm hmatch))
        exact (Bool.and_eq_true_iff.1 (Bool.and_eq_true_iff.1 hmatch).2).1
      exact ⟨hc, hf, ⟨ht.lost, ht.refused, ht.all⟩, fun _ => hheld, hempty⟩
    · cases hdev
  · split at hdev
    · cases hdev
      exact ⟨hc, hf, ⟨hk.tidy.lost, hk.tidy.refused, hk.tidy.all⟩, nofun, hk.empty⟩
    · cases hdev

theorem kept_init : Kept {} where
  correlated := correlated_init
  filed := ⟨List.nodup_nil, nofun, nofun⟩
  tidy := ⟨rfl, List.nil_subset _, List.Perm.refl _⟩
  idle := fun _ => rfl
  empty := fun _ _ => rfl

structure ReceivesOnce (k : Custody) : Prop where
  /-- At most one response was put into the slot for each call. -/
  accepted : (k.device.deliveries.map (·.owner)).Nodup
  /-- The call finds that one. -/
  waiting  : ∀ (i : Nat) (c : RpcCall), k.device.calls[i]? = some c → c.pc.owns = true → ∀ d ∈ k.device.deliveries,
    d.owner = some i → k.device.pendingDone = true ∧ k.device.pendingResponse = d.message
  /-- And returns no other. -/
  returned : ∀ (i : Nat) (c : RpcCall) (m : MicsMessage), k.device.calls[i]? = some c → c.pc = .returned (some m) →
    ⟨some i, m⟩ ∈ k.device.deliveries
  /-- Every response that was not put into the slot is released. -/
  released : k.refused ⊆ k.cleared
  /-- The payload of no message is lost: each is with the reader, in the slot, passed on or released. -/
  kept     : k.lost = [] ∧ k.all.Perm (List.range k.received)

/-- **The slot**, in every run along which no response is filed over another. -/
theorem slot_receives_once {es : List DeviceEvent} {k : Custody} (h : run custodyStep {} es = some k)
    (hs : Along custodyStep (fun k e => Single k.device e) {} es) : ReceivesOnce k := by
  have hk := Run.run_invariant_along (I := Kept) (fun _ _ _ hk hs he => custodyStep_kept hk hs he) es _ k kept_init hs h
  refine ⟨hk.filed.owners, hk.filed.waiting, fun i c m hc hr => ?_, hk.tidy.refused, hk.tidy.lost, hk.tidy.all⟩
  exact (hk.correlated.returned i c m hc hr).1.mem

end Qemu

/-- **A duplicate replaces nothing**, in every run of the table and of the device model in which no response with the
identifier of a request comes between the first one and the waiter's wake-up. -/
theorem duplicates_refused {α : Type} (es : List (Ics.TableEvent α)) (s : Ics.TableState α)
    (fs : List Qemu.DeviceEvent) (k : Qemu.Custody) (hes : Run.run Ics.tableStep Ics.TableState.init es = some s)
    (hfresh : Run.Along Ics.tableStep Ics.Fresh Ics.TableState.init es) (hfs : Run.run Qemu.custodyStep {} fs = some k)
    (hsingle : Run.Along Qemu.custodyStep (fun k e => Qemu.Single k.device e) {} fs) :
    Ics.AcceptsOnce s.log ∧ Qemu.ReceivesOnce k :=
  ⟨Ics.table_accepts_once hes hfresh, Qemu.slot_receives_once hfs hsingle⟩

/-- In both, the duplicate comes after the waiter has the first response, and is refused. -/
theorem duplicates_refused_late :
    let first : Ics.Message := ⟨Ics.makeHeader .dmaReadRsp 7 0x1000 0 .success 0 1 Ics.kFlagIsResponse, [1]⟩
    let second : Ics.Message := ⟨Ics.makeHeader .dmaReadRsp 7 0x1000 0 .success 0 1 Ics.kFlagIsResponse, [2]⟩
    let es : List (Ics.TableEvent Ics.Message) :=
      [.register 7, .waitFor 7, .complete 7 first, .wake 0 false, .complete 7 second]
    let answer : Qemu.MicsMessage := ⟨⟨4, 1, 4, 2, 0, 0x1c, 0, 0, 4⟩, [1, 0, 0, 0]⟩
    let ready : List Ics.PollRet := [.revents false false false true]
    let fs : List Qemu.DeviceEvent :=
      [.begin (.read 0x1c 4) 0, .rpc 0 .lock, .rpc 0 .check, .rpc 0 (.write [⟨ready, [.wrote 64]⟩]), .recv answer,
        .file, .rpc 0 (.finish false), .recv answer, .file]
    ∃ s k, Run.run Ics.tableStep Ics.TableState.init es = some s ∧ Run.run Qemu.custodyStep {} fs = some k ∧
      s.log = [.completed 7 second false, .returned 7 (some first), .completed 7 first true, .registered 7] ∧
      (k.given, k.cleared, k.refused) = ([0], [1], [1]) ∧ Ics.AcceptsOnce s.log ∧ Qemu.ReceivesOnce k := by
  intro first second es answer ready fs
  have hlog : (Run.run Ics.tableStep Ics.TableState.init es).map (·.log) = some [.completed 7 second false,
      .returned 7 (some first), .completed 7 first true, .registered 7] := by decide +kernel
  have hplaces : (Run.run Qemu.custodyStep {} fs).map (fun k => (k.given, k.cleared, k.refused)) =
      some ([0], [1], [1]) := by decide +kernel
  obtain ⟨s, hs, hlog⟩ := Option.map_eq_some_iff.1 hlog
  obtain ⟨k, hk, hplaces⟩ := Option.map_eq_some_iff.1 hplaces
  exact ⟨s, k, hs, hk, hlog, hplaces,
    duplicates_refused es s fs k hs (by decide +kernel) hk (by decide +kernel)⟩

/-- A duplicate that comes before the wake-up is accepted as well and replaces the first response; in the device model
the payload of the first is lost. -/
theorem duplicate_replaces :
    let first : Ics.Message := ⟨Ics.makeHeader .dmaReadRsp 7 0x1000 0 .success 0 1 Ics.kFlagIsResponse, [1]⟩
    let second : Ics.Message := ⟨Ics.makeHeader .dmaReadRsp 7 0x1000 0 .success 0 1 Ics.kFlagIsResponse, [2]⟩
    let es : List (Ics.TableEvent Ics.Message) :=
      [.register 7, .waitFor 7, .complete 7 first, .complete 7 second, .wake 0 false]
    let answer (b : UInt8) : Qemu.MicsMessage := ⟨⟨4, 1, 4, 2, 0, 0x1c, 0, 0, 4⟩, [b, 0, 0, 0]⟩
    let ready : List Ics.PollRet := [.revents false false false true]
    let fs : List Qemu.DeviceEvent :=
      [.begin (.read 0x1c 4) 0, .rpc 0 .lock, .rpc 0 .check, .rpc 0 (.write [⟨ready, [.wrote 64]⟩]), .recv (answer 1),
        .file, .recv (answer 2), .file, .rpc 0 (.finish false)]
    (∃ s, Run.run Ics.tableStep Ics.TableState.init es = some s ∧
      s.log = [.returned 7 (some second), .completed 7 second true, .completed 7 first true, .registered 7] ∧
      ¬ Ics.AcceptsOnce s.log) ∧
    ∃ k, Run.run Qemu.custodyStep {} fs = some k ∧
      k.device.calls.map (·.pc) = [.returned (some (answer 2))] ∧
      k.device.deliveries = [⟨some 0, answer 1⟩, ⟨some 0, answer 2⟩] ∧ k.lost = [0] ∧ ¬ Qemu.ReceivesOnce k := by
  intro first second es answer ready fs
  constructor
  · have hrun : (Run.run Ics.tableStep Ics.TableState.init es).map (·.log) = some [.returned 7 (some second),
        .completed 7 second true, .completed 7 first true, .registered 7] := by decide +kernel
    obtain ⟨s, hs, hlog⟩ := Option.map_eq_some_iff.1 hrun
    refine ⟨s, hs, hlog, fun h => ?_⟩
    have hok := h.refused [.returned 7 (some second)] [] [.registered 7] 7 second first true hlog List.not_mem_nil
    cases hok
  · have hrun : (Run.run Qemu.custodyStep {} fs).map
        (fun k => (k.device.calls.map (·.pc), k.device.deliveries, k.lost)) =
        some ([.returned (some (answer 2))], [⟨some 0, answer 1⟩, ⟨some 0, answer 2⟩], [0]) := by decide +kernel
    obtain ⟨k, hk, hplaces⟩ := Option.map_eq_some_iff.1 hrun
    simp only [Prod.mk.injEq] at hplaces
    refine ⟨k, hk, hplaces.1, hplaces.2.1, hplaces.2.2, fun h => ?_⟩
    have hlost := h.kept.1
    rw [hplaces.2.2] at hlost
    cases hlost

end Vip
