import PcieVip.LibRun
import PcieVip.Transaction
/-!
# PendingTable — the pending table under any number of threads (`mini_ics/transaction.hpp`, `server.cpp`)

Threads register, complete, wait and cancel; others are inside `SendRequestToHost`.  A step is one region under the
table's mutex: `WaitFor` has two, before and after its wait, and the second needs the predicate of the wait or the
timeout.  `log` is the history of the table, newest first; `replay` says what the table must hold after a history, and
`Genuine` that every result in it is the one the table gave.  The messages are of any type, so that two of them are
never confused.
-/
namespace Vip
namespace Ics

open Run (run set_getElem? snoc_getElem?)

variable {α : Type}

/-! ## Histories -/

/-- What happened to the table: the result of `Complete` and what `WaitFor` returned stand beside the call. -/
inductive Entry (α : Type) where
  | registered (txnId : UInt64)
  | completed (txnId : UInt64) (response : α) (ok : Bool)
  | returned (txnId : UInt64) (r : Option α)
  | cancelled
  deriving DecidableEq, Repr

def Entry.registers? : Entry α → Option UInt64
  | .registered txnId => some txnId
  | _                 => none

def Entry.completed? : Entry α → Option α
  | .completed _ response _ => some response
  | _                       => none

def Entry.Removes (txnId : UInt64) : Entry α → Prop
  | .returned t _ => t = txnId
  | .cancelled    => True
  | _             => False

def replay : List (Entry α) → UInt64 → Option (Option α)
  | [], _                     => none
  | .registered t :: L, u     => if u = t then some none else replay L u
  | .completed t m ok :: L, u => if u = t ∧ ok = true then some (some m) else replay L u
  | .returned t _ :: L, u     => if u = t then none else replay L u
  | .cancelled :: _, _        => none

/-- The results in the history are those the table gave. -/
def Genuine : List (Entry α) → Prop
  | []                     => True
  | .completed t _ ok :: L => ok = (replay L t).isSome ∧ Genuine L
  | .returned t r :: L     => r = (replay L t).join ∧ Genuine L
  | .registered _ :: L     => Genuine L
  | .cancelled :: L        => Genuine L

theorem Genuine.tail {e : Entry α} {L : List (Entry α)} (h : Genuine (e :: L)) : Genuine L := by
  cases e with
  | registered t => exact h
  | completed t m ok => exact h.2
  | returned t r => exact h.2
  | cancelled => exact h

theorem Genuine.suffix : ∀ (post : List (Entry α)) {L : List (Entry α)}, Genuine (post ++ L) → Genuine L
  | [], _, h        => h
  | _ :: post, _, h => Genuine.suffix post h.tail

theorem registered_of_replay : ∀ {L : List (Entry α)} {t : UInt64}, Genuine L → (replay L t).isSome = true →
    .registered t ∈ L
  | [], _, _, h                    => by cases h
  | .registered u :: L, t, hg, h   => by
    by_cases hu : t = u
    · rw [hu]
      exact List.mem_cons_self
    · rw [replay, if_neg hu] at h
      exact List.mem_cons_of_mem _ (registered_of_replay hg.tail h)
  | .completed u m ok :: L, t, hg, h => by
    by_cases hu : t = u ∧ ok = true
    · have hsome : (replay L t).isSome = true := by rw [hu.1, ← hg.1, hu.2]
      exact List.mem_cons_of_mem _ (registered_of_replay hg.2 hsome)
    · rw [replay, if_neg hu] at h
      exact List.mem_cons_of_mem _ (registered_of_replay hg.2 h)
  | .returned u r :: L, t, hg, h   => by
    rw [replay] at h
    split at h
    · cases h
    · exact List.mem_cons_of_mem _ (registered_of_replay hg.2 h)
  | .cancelled :: L, t, _, h       => by cases h

theorem completed_of_replay : ∀ {L : List (Entry α)} {t : UInt64} {m : α}, Genuine L → replay L t = some (some m) →
    ∃ after between before, L = after ++ .completed t m true :: (between ++ .registered t :: before)
  | [], _, _, _, h                     => by cases h
  | .registered u :: L, t, m, hg, h    => by
    rw [replay] at h
    split at h
    · cases h
    · obtain ⟨a, b, c, hL⟩ := completed_of_replay hg.tail h
      exact ⟨.registered u :: a, b, c, by rw [hL, List.cons_append]⟩
  | .completed u m' ok :: L, t, m, hg, h => by
    by_cases hu : t = u ∧ ok = true
    · rw [replay, if_pos hu] at h
      cases h
      have hsome : (replay L t).isSome = true := by rw [hu.1, ← hg.1, hu.2]
      obtain ⟨b, c, hL⟩ := List.append_of_mem (registered_of_replay hg.2 hsome)
      exact ⟨[], b, c, by rw [hL, hu.1, hu.2, List.nil_append]⟩
    · rw [replay, if_neg hu] at h
      obtain ⟨a, b, c, hL⟩ := completed_of_replay hg.2 h
      exact ⟨.completed u m' ok :: a, b, c, by rw [hL, List.cons_append]⟩
  | .returned u r :: L, t, m, hg, h    => by
    rw [replay] at h
    split at h
    · cases h
    · obtain ⟨a, b, c, hL⟩ := completed_of_replay hg.2 h
      exact ⟨.returned u r :: a, b, c, by rw [hL, List.cons_append]⟩
  | .cancelled :: L, t, m, _, h        => by cases h

theorem replay_of_removed {t : UInt64} {x : Entry α} (hx : x.Removes t) (before : List (Entry α)) :
    ∀ {since : List (Entry α)}, Genuine (since ++ x :: before) → .registered t ∉ since →
      replay (since ++ x :: before) t = none
  | [], _, _                            => by
    cases x with
    | registered u => cases hx
    | completed u m ok => cases hx
    | returned u r => exact if_pos (Eq.symm hx)
    | cancelled => rfl
  | .registered u :: since, hg, hn      => by
    have hu : t ≠ u := fun h => hn (h ▸ List.mem_cons_self)
    rw [List.cons_append, replay, if_neg hu]
    exact replay_of_removed hx before hg (fun h => hn (List.mem_cons_of_mem _ h))
  | .completed u m ok :: since, hg, hn  => by
    have ih := replay_of_removed hx before hg.2 (fun h => hn (List.mem_cons_of_mem _ h))
    rw [List.cons_append, replay]
    split
    · rename_i hu
      have hok : ok = (replay (since ++ x :: before) u).isSome := hg.1
      rw [← hu.1, ih, hu.2] at hok
      cases hok
    · exact ih
  | .returned u r :: since, hg, hn      => by
    rw [List.cons_append, replay]
    split
    · rfl
    · exact replay_of_removed hx before hg.2 (fun h => hn (List.mem_cons_of_mem _ h))
  | .cancelled :: _, _, _               => rfl

/-- The table is what the history leaves, and gave the results in it. -/
def Tells (L : List (Entry α)) (t : PendingRequestTable α) : Prop := Genuine L ∧ ∀ u, t.pending u = replay L u

section Tells

variable {L : List (Entry α)} {t : PendingRequestTable α}

theorem Tells.register (h : Tells L t) (txnId : UInt64) : Tells (.registered txnId :: L) (t.registerPending txnId) := by
  refine ⟨h.1, fun u => ?_⟩
  change Function.update t.pending txnId (some none) u = if u = txnId then some none else replay L u
  rw [Function.update_apply, h.2]

theorem Tells.complete (h : Tells L t) (txnId : UInt64) (m : α) :
    Tells (.completed txnId m (t.complete txnId m).1 :: L) (t.complete txnId m).2 := by
  refine ⟨⟨?_, h.1⟩, fun u => ?_⟩
  · rw [← h.2]
    unfold PendingRequestTable.complete
    split
    · rename_i hp
      rw [hp]
      rfl
    · rename_i hp
      rw [hp]
      rfl
  · change (t.complete txnId m).2.pending u =
      if u = txnId ∧ (t.complete txnId m).1 = true then some (some m) else replay L u
    rw [← h.2]
    unfold PendingRequestTable.complete
    split
    · simp
    · simp [Function.update_apply]

theorem Tells.waitFor (h : Tells L t) (txnId : UInt64) :
    Tells (.returned txnId (t.waitFor txnId).1 :: L) (t.waitFor txnId).2 := by
  refine ⟨⟨?_, h.1⟩, fun u => ?_⟩
  · rw [PendingRequestTable.waitFor_fst, h.2]
  · change (t.waitFor txnId).2.pending u = if u = txnId then none else replay L u
    rw [PendingRequestTable.waitFor_pending, h.2]

theorem Tells.cancelAll (h : Tells L t) : Tells (.cancelled :: L) t.cancelAll := ⟨h.1, fun _ => rfl⟩

end Tells

/-! ## The threads -/

/-- Where a call of `SendRequestToHost` stands; the identifier is there once it has been drawn. -/
inductive SendPc (α : Type) where
  | checking
  | registering (txnId : UInt64)
  | sending (txnId : UInt64)
  /-- Inside `WaitFor`; the response is dropped after a send that failed. -/
  | waiting (txnId : UInt64) (drop : Bool)
  | returned (txnId : Option UInt64) (r : Option α)
  deriving DecidableEq, Repr

structure SendCall (α : Type) where
  expectResponse : Bool
  pc             : SendPc α := .checking
  deriving DecidableEq, Repr

structure TableState (α : Type) where
  pending : PendingRequestTable α := {}
  txnGen  : TransactionIdGenerator := {}
  /-- The identifiers that other threads are waiting for. -/
  waits   : List UInt64 := []
  calls   : List (SendCall α) := []
  -- history
  log     : List (Entry α) := []
  ids     : List UInt64 := []

namespace TableState

def init : TableState α := {}

def register (s : TableState α) (t : UInt64) : TableState α :=
  { s with pending := s.pending.registerPending t, log := .registered t :: s.log }

def complete (s : TableState α) (t : UInt64) (m : α) : TableState α :=
  let r := s.pending.complete t m
  { s with pending := r.2, log := .completed t m r.1 :: s.log }

def cancelAll (s : TableState α) : TableState α := { s with pending := s.pending.cancelAll, log := .cancelled :: s.log }

/-- The first region of `WaitFor` finds no entry. -/
def unknown (s : TableState α) (t : UInt64) : Bool := (s.pending.pending t).isNone

/-- The predicate of the wait. -/
def awoken (s : TableState α) (t : UInt64) : Bool := (s.pending.pending t).isNone || ((s.pending.pending t).join).isSome

/-- `WaitFor` returns, from either region. -/
def leave (s : TableState α) (t : UInt64) : Option α × TableState α :=
  let r := s.pending.waitFor t
  (r.1, { s with pending := r.2, log := .returned t r.1 :: s.log })

def setPc (s : TableState α) (i : Nat) (c : SendCall α) (pc : SendPc α) : TableState α :=
  { s with calls := s.calls.set i { c with pc } }

/-- The beginning of `WaitFor` in a call of `SendRequestToHost`. -/
def enter (s : TableState α) (i : Nat) (c : SendCall α) (t : UInt64) (drop : Bool) : TableState α :=
  if s.unknown t then (s.leave t).2.setPc i c (.returned (some t) none) else s.setPc i c (.waiting t drop)

end TableState

inductive SendEvent where
  /-- `has_client_` is read; the I/O thread decides what it holds. -/
  | check (hasClient : Bool)
  | register
  /-- `SendAll` returns. -/
  | sent (ok : Bool)
  /-- The wait is over, by a timeout or not. -/
  | wake (timedOut : Bool)
  deriving DecidableEq, Repr

def sendRequestStep (s : TableState α) (i : Nat) (c : SendCall α) (e : SendEvent) : Option (TableState α) :=
  match c.pc, e with
  | .checking, .check false => some (s.setPc i c (.returned none none))
  | .checking, .check true  =>
    let (t, txnGen) := s.txnGen.next
    some ({ s with txnGen, ids := t :: s.ids }.setPc i c (.registering t))
  | .registering t, .register => some ((if c.expectResponse then s.register t else s).setPc i c (.sending t))
  | .sending t, .sent ok =>
    if c.expectResponse then some (s.enter i c t (!ok)) else some (s.setPc i c (.returned (some t) none))
  | .waiting t drop, .wake timedOut =>
    if s.awoken t || timedOut then
      let r := s.leave t
      some (r.2.setPc i c (.returned (some t) (if drop then none else r.1)))
    else none
  | _, _ => none

inductive TableEvent (α : Type) where
  /-- The operations of other threads. -/
  | register (t : UInt64)
  | complete (t : UInt64) (m : α)
  | cancelAll
  | waitFor (t : UInt64)
  | wake (k : Nat) (timedOut : Bool)
  /-- `SendRequestToHost` is called, and goes on. -/
  | call (expectResponse : Bool)
  | send (i : Nat) (e : SendEvent)
  deriving DecidableEq, Repr

def tableStep (s : TableState α) (e : TableEvent α) : Option (TableState α) :=
  match e with
  | .register t      => some { s.register t with ids := t :: s.ids }
  | .complete t m    => some (s.complete t m)
  | .cancelAll       => some s.cancelAll
  | .waitFor t       => if s.unknown t then some (s.leave t).2 else some { s with waits := s.waits ++ [t] }
  | .wake k timedOut =>
    match s.waits[k]? with
    | none   => none
    | some t =>
      if s.awoken t || timedOut then some { (s.leave t).2 with waits := s.waits.eraseIdx k } else none
  | .call expect     => some { s with calls := s.calls ++ [{ expectResponse := expect }] }
  | .send i e        =>
    match s.calls[i]? with
    | none   => none
    | some c => sendRequestStep s i c e

/-! ## The table holds what its history says -/

def SendPc.id? : SendPc α → Option UInt64
  | .checking     => none
  | .registering t => some t
  | .sending t    => some t
  | .waiting t _  => some t
  | .returned t _ => t

/-- The identifier of a call that has nothing in the table: not yet, not at all, or not any more. -/
def SendCall.clear? (c : SendCall α) : Option UInt64 :=
  match c.pc with
  | .registering t => some t
  | .sending t     => if c.expectResponse then none else some t
  | .returned t _  => t
  | _              => none

theorem SendCall.id?_of_clear? {c : SendCall α} {t : UInt64} (h : c.clear? = some t) : c.pc.id? = some t := by
  unfold SendCall.clear? at h
  unfold SendPc.id?
  split at h
  · rename_i hpc
    rw [hpc]
    exact h
  · rename_i hpc
    rw [hpc]
    split at h
    · cases h
    · exact h
  · rename_i hpc
    rw [hpc]
    exact h
  · cases h

structure TableInv (s : TableState α) : Prop where
  genuine : Genuine s.log
  table   : ∀ t, s.pending.pending t = replay s.log t
  logged  : ∀ t, .registered t ∈ s.log → t ∈ s.ids
  drawn   : ∀ c ∈ s.calls, ∀ t, c.pc.id? = some t → t ∈ s.ids
  results : ∀ c ∈ s.calls, ∀ t m, c.pc = .returned (some t) (some m) → .returned t (some m) ∈ s.log

theorem tableInv_init : TableInv (TableState.init : TableState α) :=
  ⟨trivial, fun _ => rfl, fun _ h => (by cases h), fun _ h => (by cases h), fun _ h => (by cases h)⟩

namespace TableInv

variable {s : TableState α}

theorem tells (h : TableInv s) : Tells s.log s.pending := ⟨h.genuine, h.table⟩

theorem register (h : TableInv s) (t : UInt64) {ids : List UInt64} (hids : s.ids ⊆ ids) (ht : t ∈ ids) :
    TableInv { s.register t with ids } := by
  obtain ⟨hgenuine, htable⟩ := h.tells.register t
  refine ⟨hgenuine, htable, fun u hu => ?_, fun c hc u hu => hids (h.drawn c hc u hu),
    fun c hc u m hr => List.mem_cons_of_mem _ (h.results c hc u m hr)⟩
  rcases List.mem_cons.1 hu with hu | hu
  · cases hu
    exact ht
  · exact hids (h.logged u hu)

theorem complete (h : TableInv s) (t : UInt64) (m : α) : TableInv (s.complete t m) := by
  obtain ⟨hgenuine, htable⟩ := h.tells.complete t m
  refine ⟨hgenuine, htable, fun u hu => ?_, h.drawn,
    fun c hc u m hr => List.mem_cons_of_mem _ (h.results c hc u m hr)⟩
  rcases List.mem_cons.1 hu with hu | hu
  · cases hu
  · exact h.logged u hu

theorem cancelAll (h : TableInv s) : TableInv s.cancelAll := by
  obtain ⟨hgenuine, htable⟩ := h.tells.cancelAll
  refine ⟨hgenuine, htable, fun u hu => ?_, h.drawn,
    fun c hc u m hr => List.mem_cons_of_mem _ (h.results c hc u m hr)⟩
  rcases List.mem_cons.1 hu with hu | hu
  · cases hu
  · exact h.logged u hu

theorem leave (h : TableInv s) (t : UInt64) : TableInv (s.leave t).2 := by
  obtain ⟨hgenuine, htable⟩ := h.tells.waitFor t
  refine ⟨hgenuine, htable, fun u hu => ?_, h.drawn,
    fun c hc u m hr => List.mem_cons_of_mem _ (h.results c hc u m hr)⟩
  rcases List.mem_cons.1 hu with hu | hu
  · cases hu
  · exact h.logged u hu

theorem setPc (h : TableInv s) (i : Nat) (c : SendCall α) {pc : SendPc α} (hpc : ∀ t, pc.id? = some t → t ∈ s.ids)
    (hres : ∀ t m, pc = .returned (some t) (some m) → .returned t (some m) ∈ s.log) : TableInv (s.setPc i c pc) := by
  refine ⟨h.genuine, h.table, h.logged, fun d hd t ht => ?_, fun d hd t m hr => ?_⟩
  · rcases List.mem_or_eq_of_mem_set hd with hd | rfl
    · exact h.drawn d hd t ht
    · exact hpc t ht
  · rcases List.mem_or_eq_of_mem_set hd with hd | rfl
    · exact h.results d hd t m hr
    · exact hres t m hr

theorem fresh (h : TableInv s) {t : UInt64} (ht : t ∉ s.ids) : s.pending.pending t = none := by
  rw [h.table]
  cases hr : replay s.log t with
  | none => rfl
  | some e => exact absurd (h.logged t (registered_of_replay h.genuine (by rw [hr]; rfl))) ht

end TableInv

/-! ## No call leaves an entry behind -/

/-- No two calls share an identifier, and a call that has nothing in the table has nothing in the table. -/
structure CallInv (s : TableState α) : Prop where
  distinct : ∀ (i j : Nat) (c d : SendCall α) (t : UInt64), s.calls[i]? = some c → s.calls[j]? = some d →
    c.pc.id? = some t → d.pc.id? = some t → i = j
  clear    : ∀ c ∈ s.calls, ∀ t, c.clear? = some t → s.pending.pending t = none

theorem callInv_init : CallInv (TableState.init : TableState α) :=
  ⟨fun _ _ _ _ _ h => (by simp [TableState.init] at h), fun _ h => (by cases h)⟩

namespace CallInv

variable {s s' : TableState α}

theorem shrink (h : CallInv s) (hcalls : s'.calls = s.calls)
    (hp : ∀ t, s.pending.pending t = none → s'.pending.pending t = none) : CallInv s' := by
  refine ⟨?_, ?_⟩
  · rw [hcalls]
    exact h.distinct
  · intro c hc t ht
    rw [hcalls] at hc
    exact hp t (h.clear c hc t ht)

theorem move (h : CallInv s) (ht : TableInv s) {i : Nat} {c c' : SendCall α} (hc : s.calls[i]? = some c)
    (hcalls : s'.calls = s.calls.set i c') (hid : ∀ t, c'.pc.id? = some t → c.pc.id? = some t ∨ t ∉ s.ids)
    (hp : ∀ t, s.pending.pending t = none → s'.pending.pending t = none ∨ c.pc.id? = some t)
    (hclear : ∀ t, c'.clear? = some t → s'.pending.pending t = none) : CallInv s' := by
  have hget : ∀ (j : Nat) (d : SendCall α), s'.calls[j]? = some d →
      (j = i ∧ d = c') ∨ (j ≠ i ∧ s.calls[j]? = some d) := by
    intro j d hd
    rw [hcalls] at hd
    exact (set_getElem? hc j d).1 hd
  -- the moved call's identifier is no other call's
  have hother : ∀ (j : Nat) (d : SendCall α) (t : UInt64), j ≠ i → s.calls[j]? = some d → d.pc.id? = some t →
      c'.pc.id? ≠ some t := by
    intro j d t hji hd hdt hct
    rcases hid t hct with hold | hnew
    · exact hji (h.distinct j i d c t hd hc hdt hold)
    · exact hnew (ht.drawn d (List.mem_of_getElem? hd) t hdt)
  refine ⟨?_, ?_⟩
  · intro j k d e t hd he hdt het
    rcases hget j d hd with ⟨hj, rfl⟩ | ⟨hj, hd'⟩
    · rcases hget k e he with ⟨hk, rfl⟩ | ⟨hk, he'⟩
      · rw [hj, hk]
      · exact absurd hdt (hother k e t hk he' het)
    · rcases hget k e he with ⟨hk, rfl⟩ | ⟨hk, he'⟩
      · exact absurd het (hother j d t hj hd' hdt)
      · exact h.distinct j k d e t hd' he' hdt het
  · intro d hd t hdt
    obtain ⟨j, hj⟩ := List.getElem?_of_mem hd
    rcases hget j d hj with ⟨-, rfl⟩ | ⟨hji, hd'⟩
    · exact hclear t hdt
    · rcases hp t (h.clear d (List.mem_of_getElem? hd') t hdt) with hnone | hct
      · exact hnone
      · exact absurd (h.distinct j i d c t hd' hc (SendCall.id?_of_clear? hdt) hct) hji

end CallInv

theorem leave_pending (s : TableState α) (t u : UInt64) :
    (s.leave t).2.pending.pending u = if u = t then none else s.pending.pending u :=
  PendingRequestTable.waitFor_pending s.pending t u

theorem leave_pending_none {s : TableState α} (t : UInt64) {u : UInt64} (h : s.pending.pending u = none) :
    (s.leave t).2.pending.pending u = none := by
  rw [leave_pending]
  split
  · rfl
  · exact h

theorem CallInv.leave {s : TableState α} (h : CallInv s) (ht : TableInv s) {i : Nat} {c : SendCall α} {t : UInt64}
    (hc : s.calls[i]? = some c) (hid : c.pc.id? = some t) (r : Option α) :
    CallInv ((s.leave t).2.setPc i c (.returned (some t) r)) := by
  refine h.move ht hc rfl (fun u hu => .inl ?_) (fun u hu => .inl (leave_pending_none t hu)) (fun u hu => ?_)
  · rw [hid]
    exact hu
  · cases hu
    exact (leave_pending s t t).trans (if_pos rfl)

/-- A step keeps the table true to its history, and the calls' entries in order as long as no identifier is used
twice. -/
structure Kept (s s' : TableState α) : Prop where
  table : TableInv s'
  ids   : s.ids <:+ s'.ids
  calls : s'.ids.Nodup → CallInv s → CallInv s'

section Call

variable {s : TableState α} {i : Nat} {c : SendCall α} {t : UInt64} (h : TableInv s) (hc : s.calls[i]? = some c)
include h hc

theorem Kept.noClient : Kept s (s.setPc i c (.returned none none)) := by
  refine ⟨h.setPc i c (fun t ht => (by cases ht)) (fun _ _ hr => (by cases hr)), List.suffix_refl _, fun _ hinv => ?_⟩
  exact hinv.move h hc rfl (fun t ht => (by cases ht)) (fun t ht => .inl ht) (fun t ht => (by cases ht))

theorem Kept.draw : Kept s ({ s with txnGen := s.txnGen.next.2, ids := s.txnGen.next.1 :: s.ids }.setPc i c
    (.registering s.txnGen.next.1)) := by
  have hids : TableInv { s with txnGen := s.txnGen.next.2, ids := s.txnGen.next.1 :: s.ids } :=
    ⟨h.genuine, h.table, fun t ht => List.mem_cons_of_mem _ (h.logged t ht),
      fun d hd t ht => List.mem_cons_of_mem _ (h.drawn d hd t ht), h.results⟩
  refine ⟨hids.setPc i c ?_ (fun _ _ hr => (by cases hr)), List.suffix_cons _ _, fun hnodup hinv => ?_⟩
  · intro t ht
    cases ht
    exact List.mem_cons_self
  · have hnew : s.txnGen.next.1 ∉ s.ids := (List.nodup_cons.1 hnodup).1
    refine hinv.move h hc rfl (fun t ht => ?_) (fun t ht => .inl ht) (fun t ht => ?_)
    · cases ht
      exact .inr hnew
    · cases ht
      exact h.fresh hnew

theorem Kept.register (hpc : c.pc = .registering t) (ht : t ∈ s.ids) :
    Kept s ((if c.expectResponse then s.register t else s).setPc i c (.sending t)) := by
  cases hexp : c.expectResponse with
  | true =>
    refine ⟨(h.register t (List.Subset.refl _) ht).setPc i c ?_ (fun _ _ hr => (by cases hr)),
      List.suffix_refl _, fun _ hinv => ?_⟩
    · intro u hu
      cases hu
      exact ht
    · refine hinv.move h hc rfl (fun u hu => .inl (by rw [hpc]; exact hu)) (fun u hu => ?_) (fun u hu => ?_)
      · by_cases hut : u = t
        · exact .inr (by rw [hpc, hut]; rfl)
        · exact .inl ((Function.update_of_ne hut _ _).trans hu)
      · simp [SendCall.clear?, hexp] at hu
  | false =>
    refine ⟨h.setPc i c ?_ (fun _ _ hr => (by cases hr)), List.suffix_refl _, fun _ hinv => ?_⟩
    · intro u hu
      cases hu
      exact ht
    · have hclear : c.clear? = some t := by rw [SendCall.clear?, hpc]
      refine hinv.move h hc rfl (fun u hu => .inl (by rw [hpc]; exact hu)) (fun u hu => .inl hu) (fun u hu => ?_)
      simp only [SendCall.clear?, hexp, Bool.false_eq_true, if_false, Option.some.injEq] at hu
      rw [← hu]
      exact hinv.clear c (List.mem_of_getElem? hc) t hclear

theorem Kept.enter (hid : c.pc.id? = some t) (hmem : ∀ u, some t = some u → u ∈ s.ids) (drop : Bool) :
    Kept s (s.enter i c t drop) := by
  unfold TableState.enter
  split
  · exact ⟨(h.leave t).setPc i c hmem (fun _ _ hr => (by cases hr)), List.suffix_refl _,
      fun _ hinv => hinv.leave h hc hid none⟩
  · refine ⟨h.setPc i c hmem (fun _ _ hr => (by cases hr)), List.suffix_refl _, fun _ hinv => ?_⟩
    exact hinv.move h hc rfl (fun u hu => .inl (by rw [hid]; exact hu)) (fun u hu => .inl hu)
      (fun u hu => (by cases hu))

theorem Kept.sent (hpc : c.pc = .sending t) (hexp : ¬ c.expectResponse = true)
    (hmem : ∀ u, some t = some u → u ∈ s.ids) : Kept s (s.setPc i c (.returned (some t) none)) := by
  have hid : c.pc.id? = some t := by rw [hpc]; rfl
  have hclear : c.clear? = some t := by rw [SendCall.clear?, hpc]; exact if_neg hexp
  refine ⟨h.setPc i c hmem (fun _ _ hr => (by cases hr)), List.suffix_refl _, fun _ hinv => ?_⟩
  refine hinv.move h hc rfl (fun u hu => .inl (by rw [hid]; exact hu)) (fun u hu => .inl hu) (fun u hu => ?_)
  cases hu
  exact hinv.clear c (List.mem_of_getElem? hc) t hclear

theorem Kept.wake (hid : c.pc.id? = some t) (hmem : ∀ u, some t = some u → u ∈ s.ids) (drop : Bool) :
    Kept s ((s.leave t).2.setPc i c (.returned (some t) (if drop then none else (s.leave t).1))) := by
  refine ⟨(h.leave t).setPc i c hmem (fun u m hr => ?_), List.suffix_refl _, fun _ hinv => hinv.leave h hc hid _⟩
  simp only [SendPc.returned.injEq, Option.some.injEq] at hr
  obtain ⟨rfl, hr⟩ := hr
  split at hr
  · cases hr
  · rw [← hr]
    exact List.mem_cons_self

end Call

theorem sendRequestStep_inv {s s' : TableState α} {i : Nat} {c : SendCall α} {e : SendEvent} (h : TableInv s)
    (hc : s.calls[i]? = some c) (he : sendRequestStep s i c e = some s') : Kept s s' := by
  have hdrawn := h.drawn c (List.mem_of_getElem? hc)
  have hmem : ∀ {t}, c.pc.id? = some t → ∀ u, some t = some u → u ∈ s.ids :=
    fun hid u hu => (Option.some.inj hu) ▸ hdrawn _ hid
  unfold sendRequestStep at he
  split at he
  · cases he
    exact Kept.noClient h hc
  · cases he
    exact Kept.draw h hc
  · rename_i t hpc
    cases he
    exact Kept.register h hc hpc (hdrawn t (by rw [hpc]; rfl))
  · rename_i t ok hpc
    have hid : c.pc.id? = some t := by rw [hpc]; rfl
    split at he
    · cases he
      exact Kept.enter h hc hid (hmem hid) _
    · rename_i hexp
      cases he
      exact Kept.sent h hc hpc hexp (hmem hid)
  · rename_i t drop timedOut hpc
    have hid : c.pc.id? = some t := by rw [hpc]; rfl
    split at he
    · cases he
      exact Kept.wake h hc hid (hmem hid) drop
    · cases he
  · cases he

theorem Kept.call {s : TableState α} (h : TableInv s) (expect : Bool) :
    Kept s { s with calls := s.calls ++ [{ expectResponse := expect }] } := by
  have hcall : ∀ d ∈ s.calls ++ [{ expectResponse := expect }], d ∈ s.calls ∨ d = { expectResponse := expect } := by
    intro d hd
    simpa using hd
  refine ⟨⟨h.genuine, h.table, h.logged, fun d hd t ht => ?_, fun d hd t m hr => ?_⟩, List.suffix_refl _,
    fun _ hinv => ⟨?_, ?_⟩⟩
  · rcases hcall d hd with hd | rfl
    · exact h.drawn d hd t ht
    · cases ht
  · rcases hcall d hd with hd | rfl
    · exact h.results d hd t m hr
    · cases hr
  · intro i j c d t hc hd hct hdt
    rcases snoc_getElem? hc with hc | ⟨-, rfl⟩
    · rcases snoc_getElem? hd with hd | ⟨-, rfl⟩
      · exact hinv.distinct i j c d t hc hd hct hdt
      · cases hdt
    · cases hct
  · intro d hd t ht
    rcases hcall d hd with hd | rfl
    · exact hinv.clear d hd t ht
    · cases ht

/-- **Every step keeps the table true to its history.** -/
theorem tableStep_inv {s s' : TableState α} {e : TableEvent α} (h : TableInv s) (he : tableStep s e = some s') :
    Kept s s' := by
  unfold tableStep at he
  split at he
  · rename_i t
    cases he
    refine ⟨h.register t (List.subset_cons_self _ _) List.mem_cons_self, List.suffix_cons _ _, fun hnodup hinv => ?_⟩
    refine ⟨hinv.distinct, fun c hc u hu => ?_⟩
    have hut : u ≠ t := by
      intro heq
      exact (List.nodup_cons.1 hnodup).1 (heq ▸ h.drawn c hc u (SendCall.id?_of_clear? hu))
    exact (Function.update_of_ne hut _ _).trans (hinv.clear c hc u hu)
  · rename_i t m
    cases he
    exact ⟨h.complete t m, List.suffix_refl _,
      fun _ hinv => hinv.shrink rfl (fun u hu => (s.pending.complete_pending_none t u m).2 hu)⟩
  · cases he
    exact ⟨h.cancelAll, List.suffix_refl _, fun _ hinv => hinv.shrink rfl (fun _ _ => rfl)⟩
  · rename_i t
    split at he
    · cases he
      exact ⟨h.leave t, List.suffix_refl _, fun _ hinv => hinv.shrink rfl (fun _ hu => leave_pending_none t hu)⟩
    · cases he
      exact ⟨{ h with }, List.suffix_refl _, fun _ hinv => { hinv with }⟩
  · split at he
    · cases he
    · rename_i t ht
      split at he
      · cases he
        refine ⟨{ h.leave t with }, List.suffix_refl _, fun _ hinv => ?_⟩
        exact hinv.shrink rfl (fun _ hu => leave_pending_none t hu)
      · cases he
  · rename_i expect
    cases he
    exact Kept.call h expect
  · split at he
    · cases he
    · rename_i c hc
      exact sendRequestStep_inv h hc he

/-! ## Every run -/

theorem table_run {es : List (TableEvent α)} {s : TableState α} (h : run tableStep TableState.init es = some s) :
    TableInv s ∧ (s.ids.Nodup → CallInv s) := by
  refine Run.run_invariant (I := fun s => TableInv s ∧ (s.ids.Nodup → CallInv s)) ?_ es _ s
    ⟨tableInv_init, fun _ => callInv_init⟩ h
  intro s e s' hi he
  obtain ⟨ht, hids, hcall⟩ := tableStep_inv hi.1 he
  exact ⟨ht, fun hnodup => hcall hnodup (hi.2 (hnodup.sublist hids.sublist))⟩

theorem not_registered_since {L since before : List (Entry α)} {x : Entry α} {t : UInt64}
    (hreg : (L.filterMap Entry.registers?).Nodup) (hsuf : since ++ x :: before <:+ L)
    (hb : .registered t ∈ before) : .registered t ∉ since := by
  intro hs
  have hnodup : ((since ++ x :: before).filterMap Entry.registers?).Nodup :=
    hreg.sublist (hsuf.sublist.filterMap _)
  rw [List.filterMap_append, List.nodup_append] at hnodup
  have h1 : t ∈ since.filterMap Entry.registers? := List.mem_filterMap.2 ⟨_, hs, rfl⟩
  have h2 : t ∈ (x :: before).filterMap Entry.registers? :=
    List.mem_filterMap.2 ⟨_, List.mem_cons_of_mem _ hb, rfl⟩
  exact hnodup.2.2 t h1 t h2 rfl

/-- **The pending table correlates correctly and never leaks**, under every interleaving.  `WaitFor` returns only what
was accepted for its identifier after the registration; a message accepted for one identifier only is returned for no
other; `Complete` is refused before the registration and after the entry was removed; and a call of `SendRequestToHost`
that has returned has no entry in the table. -/
theorem pending_table_correct (es : List (TableEvent α)) (s : TableState α)
    (h : run tableStep TableState.init es = some s) (hreg : (s.log.filterMap Entry.registers?).Nodup) :
    (∀ later earlier t m, s.log = later ++ .returned t (some m) :: earlier →
      ∃ after between before, earlier = after ++ .completed t m true :: (between ++ .registered t :: before)) ∧
    (∀ t u m, .returned u (some m) ∈ s.log → (∀ v ok, .completed v m ok ∈ s.log → v = t) → u = t) ∧
    (∀ later earlier t m ok, s.log = later ++ .completed t m ok :: earlier →
      (.registered t ∉ earlier → ok = false) ∧
      ∀ since x before, earlier = since ++ x :: before → x.Removes t → .registered t ∈ before → ok = false) ∧
    (s.ids.Nodup → ∀ c ∈ s.calls, ∀ t r, c.pc = .returned (some t) r → s.pending.pending t = none) := by
  obtain ⟨hinv, hcall⟩ := table_run h
  have hsound : ∀ later earlier t m, s.log = later ++ .returned t (some m) :: earlier →
      ∃ after between before, earlier = after ++ .completed t m true :: (between ++ .registered t :: before) := by
    intro later earlier t m hlog
    have hg : Genuine (.returned t (some m) :: earlier) := Genuine.suffix later (hlog ▸ hinv.genuine)
    exact completed_of_replay hg.2 (Option.join_eq_some_iff.1 hg.1.symm)
  refine ⟨hsound, ?_, ?_, ?_⟩
  · intro t u m hu honly
    obtain ⟨later, earlier, hlog⟩ := List.append_of_mem hu
    obtain ⟨a, b, c, hearlier⟩ := hsound later earlier u m hlog
    refine honly u true ?_
    rw [hlog, hearlier]
    simp
  · intro later earlier t m ok hlog
    have hg : Genuine (.completed t m ok :: earlier) := Genuine.suffix later (hlog ▸ hinv.genuine)
    have hok : replay earlier t = none → ok = false := by
      intro hnone
      rw [hg.1, hnone]
      rfl
    constructor
    · intro hnot
      apply hok
      cases hr : replay earlier t with
      | none => rfl
      | some e => exact absurd (registered_of_replay hg.2 (by rw [hr]; rfl)) hnot
    · intro since x before hearlier hx hb
      apply hok
      have hsuf : since ++ x :: before <:+ s.log := by
        rw [hlog, ← hearlier]
        exact ⟨later ++ [.completed t m ok], by simp⟩
      rw [hearlier] at hg ⊢
      exact replay_of_removed hx before hg.2 (not_registered_since hreg hsuf hb)
  · intro hids c hc t r hpc
    exact (hcall hids).clear c hc t (by rw [SendCall.clear?, hpc])

/-- Two requests at a time: the second is answered, with an unknown and a late response refused; the first is cut off by
a concurrent `Stop`. -/
theorem pending_table_correct_two :
    let es : List (TableEvent Nat) :=
      [.call true, .call true, .send 0 (.check true), .send 1 (.check true), .send 0 .register, .send 1 .register,
        .send 1 (.sent true), .send 0 (.sent true), .complete 2 20, .complete 9 90, .send 1 (.wake false),
        .complete 2 21, .cancelAll, .send 0 (.wake false)]
    ∃ s, run tableStep TableState.init es = some s ∧
      s.log = [.returned 1 none, .cancelled, .completed 2 21 false, .returned 2 (some 20), .completed 9 90 false,
        .completed 2 20 true, .registered 2, .registered 1] ∧
      s.calls.map (·.pc) = [.returned (some 1) none, .returned (some 2) (some 20)] ∧
      s.pending.pending 1 = none ∧ s.pending.pending 2 = none := by
  intro es
  have hrun : (run tableStep TableState.init es).map (fun s => (s.log, s.calls, s.ids)) =
      some ([.returned 1 none, .cancelled, .completed 2 21 false, .returned 2 (some 20), .completed 9 90 false,
        .completed 2 20 true, .registered 2, .registered 1],
        [⟨true, .returned (some 1) none⟩, ⟨true, .returned (some 2) (some 20)⟩], [2, 1]) := by decide +kernel
  obtain ⟨s, hs, heq⟩ := Option.map_eq_some_iff.1 hrun
  simp only [Prod.mk.injEq] at heq
  obtain ⟨hlog, hcalls, hids⟩ := heq
  have hclear := (pending_table_correct es s hs (by rw [hlog]; decide)).2.2.2 (by rw [hids]; decide)
  rw [hcalls] at hclear
  exact ⟨s, hs, hlog, by rw [hcalls]; rfl, hclear _ List.mem_cons_self 1 none rfl,
    hclear _ (List.mem_cons_of_mem _ List.mem_cons_self) 2 (some 20) rfl⟩

end Ics
end Vip
