import PcieVip.QemuWire
import PcieVip.Socket
/-!
# QemuSocket — the device model's socket writes (`hw/misc/pcie-vip.c` of the QEMU patch)

`micsSend` writes a header and then a payload, each through `sendAllLocked`.  As in `Socket`, what the kernel answers is
data; here a turn holds all the `send` calls that one iteration may repeat after EINTR.
-/
namespace Vip
namespace Qemu

open Ics (PollRet SendRet)

/-- `wait_fd`: unlike `PollFor`, a hang-up is a failure even when the event that was asked for is there. -/
def waitFd : List PollRet → Bool
  | []                            => false
  | .eintr :: ps                  => waitFd ps
  | .timedOut :: _                => false
  | .failed :: _                  => false
  | .revents err nval hup _ :: _  => !(err || hup || nval)

structure MicsTurn where
  polls : List PollRet
  sends : List SendRet
  deriving DecidableEq, Repr

def retrySend : List SendRet → SendRet
  | []           => .failed
  | .eintr :: rs => retrySend rs
  | r :: _       => r

structure MicsSent where
  ok    : Bool
  wrote : List UInt8
  rest  : List MicsTurn
  deriving DecidableEq, Repr

def sendAllLocked : List UInt8 → List MicsTurn → MicsSent
  | [], tx           => ⟨true, [], tx⟩
  | _ :: _, []       => ⟨false, [], []⟩
  | b :: bs, t :: tx =>
    if !waitFd t.polls then ⟨false, [], tx⟩
    else
      match retrySend t.sends with
      | .wrote (n + 1) =>
        let r := sendAllLocked ((b :: bs).drop (n + 1)) tx
        ⟨r.ok, (b :: bs).take (n + 1) ++ r.wrote, r.rest⟩
      | _ => ⟨false, [], tx⟩

/-- `mics_send`; `payload` holds the `payload_len` bytes that the pointer gives. -/
def micsSend (connected : Bool) (h : MicsHeader) (payload : List UInt8) (tx : List MicsTurn) : MicsSent :=
  if !connected then ⟨false, [], tx⟩
  else
    let hdr := sendAllLocked (micsEncodeHeader h) tx
    if hdr.ok && h.payloadLen != 0 then
      let body := sendAllLocked payload hdr.rest
      ⟨body.ok, hdr.wrote ++ body.wrote, body.rest⟩
    else hdr

/-! ## What the kernel takes -/

def micsTakes : Nat → List MicsTurn → Option (List MicsTurn)
  | 0, tx          => some tx
  | _ + 1, []      => none
  | n + 1, t :: tx =>
    if !waitFd t.polls then none
    else
      match retrySend t.sends with
      | .wrote (k + 1) => micsTakes (n - k) tx
      | _              => none

def micsRefuses : List MicsTurn → Bool
  | []     => true
  | t :: _ =>
    if !waitFd t.polls then true
    else
      match retrySend t.sends with
      | .wrote (_ + 1) => false
      | _              => true

theorem sendAllLocked_wrote : ∀ (tx : List MicsTurn) (data : List UInt8),
    (sendAllLocked data tx).wrote <+: data ∧
      (∀ rest, micsTakes data.length tx = some rest →
        (sendAllLocked data tx).ok = true ∧ (sendAllLocked data tx).wrote = data ∧
          (sendAllLocked data tx).rest = rest) ∧
      (micsTakes data.length tx = none → (sendAllLocked data tx).ok = false)
  | tx, []           => by simp [sendAllLocked, micsTakes]
  | [], b :: bs      => by simp [sendAllLocked, micsTakes]
  | t :: tx, b :: bs => by
    simp only [sendAllLocked, List.length_cons, micsTakes]
    by_cases hw : waitFd t.polls = true
    · simp only [hw, Bool.not_true, if_neg Bool.false_ne_true]
      split
      · rename_i n hn
        have hlen : ((b :: bs).drop (n + 1)).length = bs.length - n := by simp
        obtain ⟨h1, h2, h3⟩ := sendAllLocked_wrote tx ((b :: bs).drop (n + 1))
        rw [hlen] at h2 h3
        refine ⟨?_, fun rest hr => ?_, h3⟩
        · obtain ⟨x, hx⟩ := h1
          exact ⟨x, by rw [List.append_assoc, hx, List.take_append_drop]⟩
        · obtain ⟨hok, hwr, hrest⟩ := h2 rest hr
          exact ⟨hok, by rw [hwr, List.take_append_drop], hrest⟩
      · simp
    · simp [hw]

theorem sendAllLocked_refused {tx : List MicsTurn} (h : micsRefuses tx = true) {data : List UInt8} (hne : data ≠ []) :
    (sendAllLocked data tx).ok = false ∧ (sendAllLocked data tx).wrote = [] := by
  obtain ⟨b, bs, rfl⟩ := List.exists_cons_of_ne_nil hne
  cases tx with
  | nil => simp [sendAllLocked]
  | cons t tx =>
    simp only [micsRefuses] at h
    simp only [sendAllLocked]
    by_cases hw : waitFd t.polls = true
    · simp only [hw, Bool.not_true, if_neg Bool.false_ne_true] at h ⊢
      split
      · rename_i hn; rw [hn] at h; cases h
      · simp
    · simp [hw]

def micsTakesAll (h : MicsHeader) (tx : List MicsTurn) : Bool :=
  ((micsTakes 64 tx).bind (micsTakes h.payloadLen.toNat)).isSome

theorem length_micsEncodeHeader (h : MicsHeader) : (micsEncodeHeader h).length = 64 := by
  rw [micsEncodeHeader_eq, Ics.length_serializeHeader, Ics.kHeaderSize]

/-- **A send writes a front part of its message.** -/
theorem micsSend_front (connected : Bool) (h : MicsHeader) (payload : List UInt8) (tx : List MicsTurn) :
    (micsSend connected h payload tx).wrote <+: micsEncodeHeader h ++ payload := by
  unfold micsSend
  split
  · exact List.nil_prefix
  · dsimp only
    have hhdr := sendAllLocked_wrote tx (micsEncodeHeader h)
    split
    · rename_i hok
      rw [Bool.and_eq_true] at hok
      cases ht : micsTakes (micsEncodeHeader h).length tx with
      | none => rw [hhdr.2.2 ht] at hok; cases hok.1
      | some rest =>
        rw [(hhdr.2.1 rest ht).2.1]
        exact (List.prefix_append_right_inj _).2 (sendAllLocked_wrote _ payload).1
    · exact hhdr.1.trans (List.prefix_append _ _)

theorem micsSend_of_takesAll {h : MicsHeader} {payload : List UInt8} {tx : List MicsTurn}
    (hlen : payload.length = h.payloadLen.toNat) (ht : micsTakesAll h tx = true) :
    (micsSend true h payload tx).wrote = micsEncodeHeader h ++ payload := by
  unfold micsTakesAll at ht
  obtain ⟨rest', ht⟩ := Option.isSome_iff_exists.1 ht
  obtain ⟨rest, h1, h2⟩ := Option.bind_eq_some_iff.1 ht
  obtain ⟨hok, hw, hrest⟩ := (sendAllLocked_wrote tx (micsEncodeHeader h)).2.1 rest
    (by rw [length_micsEncodeHeader]; exact h1)
  obtain ⟨-, hw', -⟩ := (sendAllLocked_wrote rest payload).2.1 rest' (by rw [hlen]; exact h2)
  unfold micsSend
  dsimp only
  rw [hok, hrest, hw, hw']
  by_cases h0 : h.payloadLen = 0
  · have hnil : payload = [] := List.length_eq_zero_iff.1 (by rw [hlen, h0]; rfl)
    simp [h0, hnil, hw]
  · simp [h0]

theorem micsSend_of_refuses {tx : List MicsTurn} (hr : micsRefuses tx = true) (connected : Bool) (h : MicsHeader)
    (payload : List UInt8) : (micsSend connected h payload tx).wrote = [] := by
  have hne : micsEncodeHeader h ≠ [] := by
    intro hnil
    have := length_micsEncodeHeader h
    rw [hnil] at this
    cases this
  obtain ⟨hok, hw⟩ := sendAllLocked_refused hr hne
  unfold micsSend
  split
  · rfl
  · simp [hok, hw]

end Qemu
end Vip
