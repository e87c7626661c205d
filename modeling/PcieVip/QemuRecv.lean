import PcieVip.QemuSocket
/-!
# QemuRecv — the device model's socket reads (`hw/misc/pcie-vip.c` of the QEMU patch)

`micsRecvFrom` reads a header and then its payload, each through `recvAll`.  A turn holds the polls of one iteration
and all the `recv` calls that it may repeat after EINTR.
-/
namespace Vip
namespace Qemu

open Ics (PollRet RecvRet)

structure MicsRxTurn where
  polls : List PollRet
  recvs : List RecvRet
  deriving DecidableEq, Repr

/-- The `do ... while (rc < 0 && errno == EINTR)` loop around `recv`. -/
def retryRecv : List RecvRet → RecvRet
  | []           => .failed
  | .eintr :: rs => retryRecv rs
  | r :: _       => r

structure MicsGot where
  ok   : Bool
  got  : List UInt8
  rest : List MicsRxTurn
  deriving DecidableEq, Repr

def recvAll : Nat → List MicsRxTurn → MicsGot
  | 0, rx          => ⟨true, [], rx⟩
  | _ + 1, []      => ⟨false, [], []⟩
  | n + 1, t :: rx =>
    if !waitFd t.polls then ⟨false, [], rx⟩
    else
      match retryRecv t.recvs with
      | .data (b :: bs) =>
        if bs.length ≤ n then
          let r := recvAll (n - bs.length) rx
          ⟨r.ok, b :: bs ++ r.got, r.rest⟩
        else ⟨true, (b :: bs).take (n + 1), { t with recvs := [.data ((b :: bs).drop (n + 1))] } :: rx⟩
      | _ => ⟨false, [], rx⟩

/-- `mics_recv`: the message, if there is one, and what is left of the connection. -/
def micsRecvFrom (rx : List MicsRxTurn) : Option MicsMessage × List MicsRxTurn :=
  let wire := recvAll 64 rx
  if !wire.ok then (none, wire.rest)
  else
    match micsDecodeHeader wire.got with
    | none   => (none, wire.rest)
    | some h =>
      if h.payloadLen = 0 then (some ⟨h, []⟩, wire.rest)
      else
        let body := recvAll h.payloadLen.toNat wire.rest
        if body.ok then (some ⟨h, body.got⟩, body.rest) else (none, body.rest)

theorem retryRecv_eintr (k : Nat) (chunk : List UInt8) :
    retryRecv (List.replicate k .eintr ++ [.data chunk]) = .data chunk := by
  induction k with
  | zero      => rfl
  | succ k ih => exact ih

theorem length_recvAll : ∀ (rx : List MicsRxTurn) (n : Nat), (recvAll n rx).ok = true → (recvAll n rx).got.length = n
  | _, 0, _           => by rw [recvAll, List.length_nil]
  | [], _ + 1, h      => by cases h
  | t :: rx, n + 1, h => by
    rw [recvAll] at h ⊢
    split at h
    · cases h
    · rename_i hwait
      rw [if_neg hwait]
      split at h
      · split at h
        · rename_i hle
          rw [if_pos hle, List.length_append, List.length_cons, length_recvAll rx _ h]
          omega
        · rename_i hgt
          rw [if_neg hgt, List.length_take, List.length_cons]
          omega
      · cases h

theorem waitFd_eintr (k : Nat) (err nval hup ready : Bool) :
    waitFd (List.replicate k .eintr ++ [.revents err nval hup ready]) = !(err || hup || nval) := by
  induction k with
  | zero      => rfl
  | succ k ih => exact ih

end Qemu
end Vip
