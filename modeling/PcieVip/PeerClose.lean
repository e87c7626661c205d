import PcieVip.QemuRecv
/-!
# PeerClose — reading what a peer wrote before it closed

The device model's `recv_all` and the server's `RecvAll` over one line.  A line is what a peer wrote before it closed
its end, cut as the kernel hands it out: each arrival is what one `recv` returns, with the signals that come in
between and whether the close had come by the time of its poll.  The kernel reports POLLIN together with POLLHUP while
there are bytes left of a closed peer, and the gaps between arrivals are shorter than the timeout.

`wait_fd` takes POLLHUP for a failure even beside POLLIN, `PollFor` only without it.  So the server reads all that was
written, and the device model only what it polled for before the close (`hang_up_iff`).
-/
namespace Vip
namespace PeerClose

open Ics (PollRet RxTurn)
open Qemu (MicsRxTurn)

/-! ## Lines -/

structure Arrival where
  chunk       : List UInt8
  closed      : Bool := false
  pollSignals : Nat := 0
  recvSignals : Nat := 0
  deriving DecidableEq, Repr

/-- Nothing is handed out in empty pieces, and a peer that has closed stays closed. -/
structure Line where
  arrivals : List Arrival
  nonempty : ∀ a ∈ arrivals, a.chunk ≠ []
  closes   : arrivals.Pairwise (fun a b => a.closed = true → b.closed = true)

def Arrival.polls (a : Arrival) : List PollRet :=
  List.replicate a.pollSignals .eintr ++ [.revents false false a.closed true]

/-- `RecvAll` polls again after a signal. -/
def Arrival.rxTurns (a : Arrival) : List RxTurn :=
  List.replicate a.recvSignals ⟨a.polls, .eintr⟩ ++ [⟨a.polls, .data a.chunk⟩]

def Arrival.micsTurn (a : Arrival) : MicsRxTurn :=
  ⟨a.polls, List.replicate a.recvSignals .eintr ++ [.data a.chunk]⟩

namespace Line

def stream (l : Line) : List UInt8 := l.arrivals.flatMap Arrival.chunk

def beforeClose (l : Line) : List UInt8 := (l.arrivals.takeWhile (fun a => !a.closed)).flatMap Arrival.chunk

/-- At the end `recv` returns 0. -/
def rx (l : Line) : List RxTurn :=
  l.arrivals.flatMap Arrival.rxTurns ++ [⟨[.revents false false true true], .data []⟩]

def micsRx (l : Line) : List MicsRxTurn :=
  l.arrivals.map Arrival.micsTurn ++ [⟨[.revents false false true true], [.data []]⟩]

theorem beforeClose_le (l : Line) : l.beforeClose.length ≤ l.stream.length := by
  have hsplit := List.takeWhile_append_dropWhile (p := fun a : Arrival => !a.closed) (l := l.arrivals)
  have hstream := congrArg (fun as => (as.flatMap Arrival.chunk).length) hsplit
  simp only [List.flatMap_append, List.length_append] at hstream
  unfold beforeClose stream
  omega

end Line

/-! ## RecvAll -/

theorem Arrival.pollFor_polls (a : Arrival) : Ics.pollFor a.polls = .ok := by
  rw [Arrival.polls, Ics.pollFor_eintr]
  cases a.closed <;> rfl

theorem Arrival.rxTurns_clean {a : Arrival} (h : a.chunk ≠ []) : ∀ t ∈ a.rxTurns, t.Clean := by
  intro t ht
  rw [Arrival.rxTurns, List.mem_append, List.mem_replicate, List.mem_singleton] at ht
  rcases ht with ⟨-, rfl⟩ | rfl
  · exact ⟨a.pollFor_polls, .inl rfl⟩
  · obtain ⟨b, bs, hchunk⟩ := List.exists_cons_of_ne_nil h
    exact ⟨a.pollFor_polls, .inr (.inr ⟨b, bs, by rw [hchunk]⟩)⟩

theorem Arrival.streamOf_rxTurns (a : Arrival) : Ics.streamOf a.rxTurns = a.chunk := by
  have hdata : RxTurn.bytes ⟨a.polls, .data a.chunk⟩ = a.chunk := Ics.RxTurn.bytes_of_ok a.pollFor_polls
  have heintr : RxTurn.bytes ⟨a.polls, .eintr⟩ = [] := Ics.RxTurn.bytes_of_ok a.pollFor_polls
  rw [Arrival.rxTurns, Ics.streamOf, List.flatMap_append, List.flatMap_singleton, hdata]
  have hnil : (List.replicate a.recvSignals (RxTurn.mk a.polls .eintr)).flatMap RxTurn.bytes = [] := by
    rw [List.flatMap_eq_nil_iff]
    intro t ht
    rw [List.eq_of_mem_replicate ht, heintr]
  rw [hnil, List.nil_append]

theorem streamOf_arrivals (as : List Arrival) :
    Ics.streamOf (as.flatMap Arrival.rxTurns) = as.flatMap Arrival.chunk := by
  induction as with
  | nil          => rfl
  | cons a as ih =>
    rw [List.flatMap_cons, List.flatMap_cons, Ics.streamOf, List.flatMap_append]
    exact congrArg₂ _ a.streamOf_rxTurns ih

/-- **The server reads whatever was written before the close.** -/
theorem recvAll_ok_iff (l : Line) (len : Nat) :
    (Ics.recvAll len l.rx).status = .ok ↔ len ≤ l.stream.length := by
  have hstream : Ics.streamOf l.rx = l.stream := by
    rw [Line.rx, Ics.streamOf, List.flatMap_append]
    exact (congrArg (· ++ _) (streamOf_arrivals l.arrivals)).trans (List.append_nil _)
  constructor
  · intro h
    have hlen := congrArg List.length (Ics.recvAll_stream l.rx len)
    rw [List.length_append, Ics.recvAll_ok_length h, hstream] at hlen
    omega
  · intro h
    have hclean : ∀ t ∈ l.arrivals.flatMap Arrival.rxTurns, t.Clean := by
      intro t ht
      obtain ⟨a, ha, hta⟩ := List.mem_flatMap.1 ht
      exact Arrival.rxTurns_clean (l.nonempty a ha) t hta
    have hok := (Ics.recvAll_clean (l.arrivals.flatMap Arrival.rxTurns) len hclean
      (by rw [streamOf_arrivals]; exact h)).1
    rw [Line.rx, Ics.recvAll_append _ _ _ hok]

/-! ## recv_all -/

theorem Arrival.waitFd_polls (a : Arrival) : Qemu.waitFd a.polls = !a.closed := by
  rw [Arrival.polls, Qemu.waitFd_eintr]
  cases a.closed <;> rfl

theorem recvAll_hup {t : MicsRxTurn} (h : Qemu.waitFd t.polls = false) (n : Nat) (rx : List MicsRxTurn) :
    Qemu.recvAll (n + 1) (t :: rx) = ⟨false, [], rx⟩ := by
  rw [Qemu.recvAll, h]
  rfl

theorem recvAll_open {a : Arrival} {b : UInt8} {bs : List UInt8} (hopen : a.closed = false) (hchunk : a.chunk = b :: bs)
    (n : Nat) (rx : List MicsRxTurn) :
    Qemu.recvAll (n + 1) (a.micsTurn :: rx) =
      if bs.length ≤ n then
        ⟨(Qemu.recvAll (n - bs.length) rx).ok, b :: bs ++ (Qemu.recvAll (n - bs.length) rx).got,
          (Qemu.recvAll (n - bs.length) rx).rest⟩
      else ⟨true, (b :: bs).take (n + 1), ⟨a.polls, [.data ((b :: bs).drop (n + 1))]⟩ :: rx⟩ := by
  have hwait : Qemu.waitFd a.micsTurn.polls = true := by
    rw [Arrival.micsTurn, Arrival.waitFd_polls, hopen]
    rfl
  have hrecv : Qemu.retryRecv a.micsTurn.recvs = .data (b :: bs) := by
    rw [Arrival.micsTurn, Qemu.retryRecv_eintr, hchunk]
  rw [Qemu.recvAll, hwait, hrecv, Bool.not_true, if_neg Bool.false_ne_true]
  rfl

/-- **The device model reads as far as the polls came before the close**, and what it reads is the stream. -/
theorem recv_all_ok (eof : List MicsRxTurn) (heof : ∀ n, (Qemu.recvAll (n + 1) eof).ok = false) :
    ∀ (as : List Arrival) (len : Nat), (∀ a ∈ as, a.chunk ≠ []) →
      ((Qemu.recvAll len (as.map Arrival.micsTurn ++ eof)).ok = true ↔
        len ≤ ((as.takeWhile (fun a => !a.closed)).flatMap Arrival.chunk).length) ∧
      ((Qemu.recvAll len (as.map Arrival.micsTurn ++ eof)).ok = true →
        (Qemu.recvAll len (as.map Arrival.micsTurn ++ eof)).got = (as.flatMap Arrival.chunk).take len)
  | as, 0, _            => by simp [Qemu.recvAll]
  | [], n + 1, _        => by
    rw [List.map_nil, List.nil_append, heof]
    exact ⟨iff_of_false Bool.false_ne_true (by simp), fun h => absurd h Bool.false_ne_true⟩
  | a :: as, n + 1, hne => by
    rw [List.map_cons, List.cons_append, List.takeWhile_cons]
    cases hc : a.closed with
    | true  =>
      have hwait : Qemu.waitFd a.micsTurn.polls = false := by
        rw [Arrival.micsTurn, Arrival.waitFd_polls, hc]
        rfl
      rw [recvAll_hup hwait]
      exact ⟨iff_of_false Bool.false_ne_true (by simp), fun h => absurd h Bool.false_ne_true⟩
    | false =>
      obtain ⟨b, bs, hchunk⟩ := List.exists_cons_of_ne_nil (hne a List.mem_cons_self)
      have ih := recv_all_ok eof heof as (n - bs.length) (fun x hx => hne x (List.mem_cons_of_mem a hx))
      rw [recvAll_open hc hchunk]
      simp only [Bool.not_false, if_true, List.flatMap_cons, hchunk, List.length_append, List.length_cons]
      -- the chunk is read whole, or the rest of it stays in the socket
      split
      · rename_i hle
        have hfront : (b :: bs).take (n + 1) = b :: bs := List.take_of_length_le (Nat.succ_le_succ hle)
        refine ⟨ih.1.trans (by omega), fun h => ?_⟩
        rw [List.take_append, hfront, List.length_cons, Nat.succ_sub_succ, ← ih.2 h]
      · rename_i hgt
        refine ⟨iff_of_true rfl (by omega), fun _ => ?_⟩
        rw [List.take_append_of_le_length (by rw [List.length_cons]; omega)]

theorem recv_all_eof (n : Nat) :
    (Qemu.recvAll (n + 1) [⟨[.revents false false true true], [.data []]⟩]).ok = false := rfl

/-! ## Both -/

/-- Neither reader loses a byte of what was written, and they succeed on the same reads. -/
structure Complete (l : Line) (len : Nat) : Prop where
  whole  : len ≤ l.stream.length →
    (Qemu.recvAll len l.micsRx).ok = true ∧ (Qemu.recvAll len l.micsRx).got = l.stream.take len
  server : (Ics.recvAll len l.rx).status = .ok ↔ len ≤ l.stream.length
  same   : (Ics.recvAll len l.rx).status = .ok ↔ (Qemu.recvAll len l.micsRx).ok = true

/-- **Which reads lose nothing to the close of the peer.** Those of more than was written, which fail in both, and those
of bytes that were all polled for before the close. -/
theorem hang_up_iff (l : Line) (len : Nat) :
    Complete l len ↔ l.stream.length < len ∨ len ≤ l.beforeClose.length := by
  obtain ⟨hok, hgot⟩ := recv_all_ok _ recv_all_eof l.arrivals len l.nonempty
  have hserver := recvAll_ok_iff l len
  have hbefore := l.beforeClose_le
  constructor
  · intro h
    refine or_iff_not_imp_left.2 (fun hlt => ?_)
    exact hok.1 (h.whole (Nat.not_lt.1 hlt)).1
  · rintro (hlt | hle)
    · have hfails : ¬ len ≤ l.beforeClose.length := by omega
      refine ⟨fun h => absurd hlt (Nat.not_lt.2 h), hserver, ?_⟩
      exact iff_of_false (fun h => Nat.not_lt.2 (hserver.1 h) hlt) (fun h => hfails (hok.1 h))
    · have hreads := hok.2 hle
      exact ⟨fun _ => ⟨hreads, hgot hreads⟩, hserver, iff_of_true (hserver.2 (by omega)) hreads⟩

/-- Four bytes and a close before the poll: the server reads them, and the device model does not. -/
theorem hang_up_loses :
    let l : Line := ⟨[{ chunk := [1, 2, 3, 4], closed := true }], by decide, by decide⟩
    (Ics.recvAll 4 l.rx).status = .ok ∧ (Qemu.recvAll 4 l.micsRx).ok = false ∧ ¬ Complete l 4 := by
  refine ⟨by decide, by decide, fun h => ?_⟩
  exact absurd (h.whole (by decide)).1 (by decide)

end PeerClose
end Vip
