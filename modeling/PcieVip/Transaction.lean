import Mathlib.Logic.Function.Basic
import PcieVip.Framing
/-!
# Transaction — identifiers, the queue and the pending table (`mini_ics/transaction.hpp`)

The three containers of `transaction.hpp`, each operation as it acts under its mutex.  A blocking call is the operation
at the moment its wait is over: whether that is a notification, the timeout or a shutdown can be read off the contents.
-/
namespace Vip
namespace Ics

/-- `std::atomic` counter; `fetch_add` wraps. -/
structure TransactionIdGenerator where
  nextId : UInt64 := 1
  deriving DecidableEq, Repr

def TransactionIdGenerator.next (g : TransactionIdGenerator) : UInt64 × TransactionIdGenerator :=
  (g.nextId, ⟨g.nextId + 1⟩)

/-! ## BlockingQueue -/

structure BlockingQueue (α : Type) where
  queue    : List α := []
  shutdown : Bool := false
  deriving DecidableEq, Repr

namespace BlockingQueue

variable {α : Type}

def push (q : BlockingQueue α) (item : α) : BlockingQueue α := { q with queue := q.queue ++ [item] }

/-- `Pop` once its wait is over: the front, or nothing when the queue is empty (timeout or shutdown). -/
def pop (q : BlockingQueue α) : Option α × BlockingQueue α :=
  match q.queue with
  | []           => (none, q)
  | item :: rest => (some item, { q with queue := rest })

def shutDown (q : BlockingQueue α) : BlockingQueue α := { q with shutdown := true }

@[simp] theorem push_queue (q : BlockingQueue α) (item : α) : (q.push item).queue = q.queue ++ [item] := rfl

theorem pop_queue (q : BlockingQueue α) : q.pop.1.toList ++ q.pop.2.queue = q.queue := by
  unfold pop
  split <;> simp_all

end BlockingQueue

/-! ## PendingRequestTable -/

/-- The map of pending transactions: no entry, an entry still waiting, or an entry with its response. -/
structure PendingRequestTable (α : Type) where
  pending : UInt64 → Option (Option α) := fun _ => none

namespace PendingRequestTable

variable {α : Type}

def registerPending (t : PendingRequestTable α) (txnId : UInt64) : PendingRequestTable α :=
  ⟨Function.update t.pending txnId (some none)⟩

/-- `Complete`: the last response wins; an unknown identifier is refused. -/
def complete (t : PendingRequestTable α) (txnId : UInt64) (response : α) : Bool × PendingRequestTable α :=
  match t.pending txnId with
  | none   => (false, t)
  | some _ => (true, ⟨Function.update t.pending txnId (some (some response))⟩)

/-- `WaitFor` once its wait is over: the response if it arrived; the entry is removed in any case. -/
def waitFor (t : PendingRequestTable α) (txnId : UInt64) : Option α × PendingRequestTable α :=
  match t.pending txnId with
  | none       => (none, t)
  | some entry => (entry, ⟨Function.update t.pending txnId none⟩)

def cancelAll (_t : PendingRequestTable α) : PendingRequestTable α := ⟨fun _ => none⟩

theorem complete_pending {t : PendingRequestTable α} {txnId id : UInt64} {response r : α}
    (h : (t.complete txnId response).2.pending id = some (some r)) :
    t.pending id = some (some r) ∨ id = txnId ∧ r = response := by
  unfold complete at h
  split at h
  · exact .inl h
  · by_cases hid : id = txnId
    · subst hid
      simp only [Function.update_self, Option.some.injEq] at h
      exact .inr ⟨rfl, h.symm⟩
    · simp only [Function.update_of_ne hid] at h
      exact .inl h

theorem complete_pending_none (t : PendingRequestTable α) (txnId id : UInt64) (response : α) :
    (t.complete txnId response).2.pending id = none ↔ t.pending id = none := by
  unfold complete
  split
  · rfl
  · rename_i hf
    by_cases hid : id = txnId
    · subst hid; simp [hf]
    · simp only [Function.update_of_ne hid]

theorem waitFor_fst (t : PendingRequestTable α) (txnId : UInt64) :
    (t.waitFor txnId).1 = (t.pending txnId).join := by
  unfold waitFor
  split <;> simp_all

/-- **`WaitFor` leaves no entry of its identifier** and touches no other. -/
theorem waitFor_pending (t : PendingRequestTable α) (txnId id : UInt64) :
    (t.waitFor txnId).2.pending id = if id = txnId then none else t.pending id := by
  unfold waitFor
  by_cases hid : id = txnId
  · subst hid
    split <;> simp_all
  · split
    · simp [hid]
    · simp [hid]

end PendingRequestTable

end Ics
end Vip
