import PcieVip.QemuDevice
import PcieVip.QemuRecv
/-!
# QemuRealize — `pcie_vip_realize` and its error labels (`hw/misc/pcie-vip.c` of the QEMU patch)

What the device acquires on its way and what each label releases.  The results of QEMU's and the kernel's functions are
data, and so is what the backend sends during the handshake.  The object is new: its fields are zero.

A failed handshake goes to `err_msix`, below the label that closes the socket.  So an error leaves nothing behind
exactly if it is not the handshake that fails (`failed_realize_iff`).
-/
namespace Vip
namespace Qemu

/-! ## State -/

/-- The fields that are acquired and released, and the sockets that the device holds open. -/
structure Acquired where
  fd        : Int := 0
  connected : Bool := false
  nextTxnId : UInt64 := 0
  workBh    : Bool := false
  msix      : Bool := false
  blocker   : Bool := false
  reader    : Bool := false
  sockets   : List Nat := []
  deriving DecidableEq, Repr

inductive RealizeError where
  | capability
  | msix
  | socketPath
  | cannotConnect (path : String)
  | handshake
  | blocker
  deriving DecidableEq, Repr

/-- The texts of the device itself; that of `connect` goes on with the one for `errno`. -/
def RealizeError.message : RealizeError → Option String
  | .capability         => some "pcie-vip: failed to add PCIe capability"
  | .socketPath         => some "pcie-vip: invalid socket path"
  | .cannotConnect path => some ("pcie-vip: cannot connect to " ++ path)
  | .handshake          => some "pcie-vip: Mini ICS v2 handshake failed"
  | .msix | .blocker    => none

/-- A turn of the loop in `pcie_vip_connect`: the descriptor, if there is one, and whether `connect` returns 0. -/
structure ConnectAttempt where
  socket   : Option Nat
  connects : Bool := false
  deriving DecidableEq, Repr

/-- What `pcie_vip_realize` meets.  `more` are the attempts for which there is time after the first. -/
structure Setting where
  socketPath : Option String
  capInit    : Int := 0
  msixInit   : Int := 0
  first      : ConnectAttempt
  more       : List ConnectAttempt := []
  now        : UInt64 := 0
  tx         : List MicsTurn := []
  rx         : List MicsRxTurn := []
  addBlocker : Int := 0

/-! ## pcie_vip_connect -/

def sunPathSize : Nat := 108

def connectLoop (s : Acquired) : List ConnectAttempt → Acquired × Bool
  | []      => (s, false)
  | a :: as =>
    match a.socket with
    | none   => ({ s with fd := -1 }, false)
    | some n =>
      let s := { s with fd := n, sockets := n :: s.sockets }
      if a.connects then ({ s with connected := true }, true)
      else connectLoop { s with fd := -1, sockets := s.sockets.erase n } as

def pcieVipConnect (s : Acquired) (w : Setting) : Acquired × Option RealizeError :=
  match w.socketPath with
  | none      => (s, some .socketPath)
  | some path =>
    if path.utf8ByteSize ≥ sunPathSize then (s, some .socketPath)
    else
      let r := connectLoop s (w.first :: w.more)
      (r.1, if r.2 then none else some (.cannotConnect path))

/-! ## pcie_vip_handshake -/

def helloHeader (txnId now : UInt64) : MicsHeader := ⟨MicsType.hello.code, 0, 0, txnId, now, 0, 0, micsStatusSuccess, 0⟩

def MicsMessage.isHelloAck (m : MicsMessage) (txnId : UInt64) : Bool :=
  m.h.type == MicsType.helloAck.code && m.h.txnId == txnId && m.h.status == micsStatusSuccess

def pcieVipHandshake (s : Acquired) (w : Setting) : Acquired × Bool :=
  let hello := helloHeader s.nextTxnId w.now
  let s := { s with nextTxnId := s.nextTxnId + 1 }
  (s, (micsSend s.connected hello [] w.tx).ok && (micsRecvFrom w.rx).1.any (·.isHelloAck hello.txnId))

/-! ## pcie_vip_realize -/

def Acquired.errBh (s : Acquired) : Acquired := { s with workBh := false }

def Acquired.errMsix (s : Acquired) : Acquired := { s with msix := false }.errBh

def Acquired.errSocket (s : Acquired) : Acquired :=
  { s with connected := false, sockets := s.sockets.erase s.fd.toNat, fd := -1 }.errMsix

def pcieVipRealize (w : Setting) : Acquired × Option RealizeError :=
  let s : Acquired := { fd := -1, nextTxnId := 1, workBh := true }
  if w.capInit < 0 then (s.errBh, some .capability)
  else if w.msixInit ≠ 0 then (s.errBh, some .msix)
  else
    let s := { s with msix := true }
    let c := pcieVipConnect s w
    match c.2 with
    | some e => (c.1.errMsix, some e)
    | none   =>
      let h := pcieVipHandshake c.1 w
      if !h.2 then (h.1.errMsix, some .handshake)
      else
        let s := { h.1 with blocker := true }
        if w.addBlocker < 0 then (s.errSocket, some .blocker) else ({ s with reader := true }, none)

structure Acquired.Released (s : Acquired) : Prop where
  fd        : s.fd = -1
  sockets   : s.sockets = []
  connected : s.connected = false
  workBh    : s.workBh = false
  msix      : s.msix = false

/-! ## What the backend does -/

def reaches : List ConnectAttempt → Bool
  | []      => false
  | a :: as => a.socket.isSome && (a.connects || reaches as)

def Setting.Connects (w : Setting) : Prop :=
  (∃ path, w.socketPath = some path ∧ path.utf8ByteSize < sunPathSize) ∧ reaches (w.first :: w.more) = true

/-- The greeting is taken, and what comes back is its acknowledgement. -/
def Setting.Greets (w : Setting) : Prop :=
  micsTakesAll (helloHeader 1 w.now) w.tx = true ∧ ∃ m, (micsRecvFrom w.rx).1 = some m ∧ m.isHelloAck 1 = true

theorem connectLoop_eq : ∀ (as : List ConnectAttempt) (s : Acquired), s.fd = -1 →
    ((connectLoop s as).2 = reaches as) ∧ ((connectLoop s as).2 = false → (connectLoop s as).1 = s) ∧
      ((connectLoop s as).2 = true →
        ∃ n : Nat, (connectLoop s as).1 = { s with fd := n, connected := true, sockets := n :: s.sockets })
  | [], s, _       => ⟨rfl, fun _ => rfl, nofun⟩
  | a :: as, s, hs => by
    unfold connectLoop reaches
    cases ha : a.socket with
    | none   =>
      refine ⟨rfl, fun _ => ?_, nofun⟩
      rw [← hs]
    | some n =>
      dsimp only
      cases hc : a.connects with
      | true  => exact ⟨rfl, nofun, fun _ => ⟨n, rfl⟩⟩
      | false =>
        have hback : ({ s with fd := -1, sockets := (n :: s.sockets).erase n } : Acquired) = s := by
          rw [List.erase_cons_head, ← hs]
        rw [hback]
        exact connectLoop_eq as s hs

theorem pcieVipConnect_eq (w : Setting) {s : Acquired} (hs : s.fd = -1) :
    ((pcieVipConnect s w).2 = none ↔ w.Connects) ∧
      ((pcieVipConnect s w).2 ≠ none → (pcieVipConnect s w).1 = s) ∧
      ((pcieVipConnect s w).2 = none →
        ∃ n : Nat, (pcieVipConnect s w).1 = { s with fd := n, connected := true, sockets := n :: s.sockets }) := by
  unfold pcieVipConnect Setting.Connects
  cases hpath : w.socketPath with
  | none      => exact ⟨iff_of_false nofun (by rintro ⟨⟨path, h, -⟩, -⟩; cases h), fun _ => rfl, nofun⟩
  | some path =>
    dsimp only
    split
    · rename_i hlong
      refine ⟨iff_of_false nofun ?_, fun _ => rfl, nofun⟩
      rintro ⟨⟨path', h, hshort⟩, -⟩
      cases h
      exact Nat.not_lt.2 hlong hshort
    · rename_i hshort
      obtain ⟨hreach, hback, hopen⟩ := connectLoop_eq (w.first :: w.more) s hs
      cases hr : (connectLoop s (w.first :: w.more)).2 with
      | false => exact ⟨iff_of_false nofun (fun h => by rw [← hreach, hr] at h; cases h.2), fun _ => hback hr, nofun⟩
      | true  =>
        refine ⟨iff_of_true rfl ⟨⟨path, rfl, Nat.not_le.1 hshort⟩, ?_⟩, fun h => absurd rfl h, fun _ => hopen hr⟩
        rw [← hreach, hr]

theorem micsSend_ok_iff (h : MicsHeader) (tx : List MicsTurn) (hlen : h.payloadLen = 0) :
    (micsSend true h [] tx).ok = true ↔ micsTakesAll h tx = true := by
  obtain ⟨-, htakes, hrefused⟩ := sendAllLocked_wrote tx (micsEncodeHeader h)
  rw [length_micsEncodeHeader] at htakes hrefused
  unfold micsSend micsTakesAll
  rw [hlen]
  cases ht : micsTakes 64 tx with
  | none      =>
    have hno := hrefused ht
    simp [hno]
  | some rest =>
    have hyes := (htakes rest ht).1
    simp [hyes, micsTakes]

theorem pcieVipHandshake_eq {s : Acquired} (w : Setting) (hconn : s.connected = true) (htxn : s.nextTxnId = 1) :
    (pcieVipHandshake s w).1 = { s with nextTxnId := 2 } ∧ ((pcieVipHandshake s w).2 = true ↔ w.Greets) := by
  unfold pcieVipHandshake Setting.Greets
  rw [htxn]
  refine ⟨rfl, ?_⟩
  dsimp only
  rw [hconn, Bool.and_eq_true, micsSend_ok_iff _ _ rfl, Option.any_eq_true]
  exact Iff.rfl

theorem pcieVipRealize_cases (w : Setting) :
    (∃ e, ¬ (0 ≤ w.capInit ∧ w.msixInit = 0 ∧ w.Connects) ∧ pcieVipRealize w = ({ fd := -1, nextTxnId := 1 }, some e)) ∨
    ∃ n : Nat, (0 ≤ w.capInit ∧ w.msixInit = 0 ∧ w.Connects) ∧
      (¬ w.Greets ∧ pcieVipRealize w =
          ({ fd := n, connected := true, nextTxnId := 2, sockets := [n] }, some .handshake) ∨
        w.Greets ∧ (pcieVipRealize w = ({ fd := -1, nextTxnId := 2, blocker := true }, some .blocker) ∨
          pcieVipRealize w = ({ fd := n, connected := true, nextTxnId := 2, workBh := true, msix := true
                                blocker := true, reader := true, sockets := [n] }, none))) := by
  unfold pcieVipRealize
  dsimp only
  split
  · rename_i hcap
    exact .inl ⟨_, fun h => absurd hcap (Int.not_lt.2 h.1), rfl⟩
  split
  · rename_i hmsix
    exact .inl ⟨_, fun h => hmsix h.2.1, rfl⟩
  rename_i hcap hmsix
  obtain ⟨hconn, hback, hopen⟩ :=
    pcieVipConnect_eq w (s := { fd := -1, nextTxnId := 1, workBh := true, msix := true }) rfl
  split
  · rename_i e he
    rw [hback (by rw [he]; exact Option.some_ne_none e)]
    refine .inl ⟨e, fun h => ?_, rfl⟩
    rw [hconn.2 h.2.2] at he
    cases he
  · rename_i hnone
    obtain ⟨n, hs⟩ := hopen hnone
    -- from here on the socket is open, and only `errSocket` closes it
    obtain ⟨hnext, hgreets⟩ := pcieVipHandshake_eq w (congrArg Acquired.connected hs) (congrArg Acquired.nextTxnId hs)
    rw [hs] at hgreets
    rw [hnext, hs]
    refine .inr ⟨n, ⟨Int.not_lt.1 hcap, not_not.1 hmsix, hconn.1 hnone⟩, ?_⟩
    split
    · rename_i hno
      rw [Bool.not_eq_true', ← Bool.not_eq_true, hgreets] at hno
      exact .inl ⟨hno, rfl⟩
    · rename_i hyes
      rw [Bool.not_eq_true', Bool.not_eq_false, hgreets] at hyes
      refine .inr ⟨hyes, ?_⟩
      split
      · refine .inl ?_
        rw [Acquired.errSocket, Int.toNat_natCast, List.erase_cons_head]
        rfl
      · exact .inr rfl

/-- **Which failures leave nothing behind.** All but the one of a handshake on a connection that was made. -/
theorem failed_realize_iff (w : Setting) :
    ((pcieVipRealize w).2 ≠ none → (pcieVipRealize w).1.Released) ↔
      (0 ≤ w.capInit → w.msixInit = 0 → w.Connects → w.Greets) := by
  rcases pcieVipRealize_cases w with ⟨e, hearly, h⟩ | ⟨n, ⟨hcap, hmsix, hconn⟩, ⟨hno, h⟩ | ⟨hyes, h | h⟩⟩
  · rw [h]
    exact iff_of_true (fun _ => ⟨rfl, rfl, rfl, rfl, rfl⟩) (fun h1 h2 h3 => absurd ⟨h1, h2, h3⟩ hearly)
  · rw [h]
    refine iff_of_false (fun hrel => ?_) (fun hgr => hno (hgr hcap hmsix hconn))
    cases (hrel (Option.some_ne_none _)).connected
  · rw [h]
    exact iff_of_true (fun _ => ⟨rfl, rfl, rfl, rfl, rfl⟩) (fun _ _ _ => hyes)
  · rw [h]
    exact iff_of_true (fun hne => absurd rfl hne) (fun _ _ _ => hyes)

/-- The greeting is not answered in time: the socket stays open, and the device counts as connected. -/
theorem handshake_leak :
    let w : Setting :=
      { socketPath := some "/tmp/pcie-vip.sock", first := { socket := some 3, connects := true }
        tx := [⟨[.revents false false false true], [.wrote 64]⟩] }
    (pcieVipRealize w).2 = some .handshake ∧ (pcieVipRealize w).1.fd = 3 ∧ (pcieVipRealize w).1.sockets = [3] ∧
      (pcieVipRealize w).1.connected = true ∧
      ¬ ((pcieVipRealize w).2 ≠ none → (pcieVipRealize w).1.Released) := by
  intro w
  have hrun : pcieVipRealize w = ({ fd := 3, connected := true, nextTxnId := 2, sockets := [3] }, some .handshake) := by
    decide +kernel
  rw [hrun]
  refine ⟨rfl, rfl, rfl, rfl, fun h => ?_⟩
  cases (h (Option.some_ne_none _)).connected

/-! ## The device after realize -/

/-- **A device that was realized is the one that the reader thread and the callers start from.** -/
theorem realize_init {w : Setting} (h : (pcieVipRealize w).2 = none) :
    (pcieVipRealize w).1.connected = Device.init.connected ∧ (pcieVipRealize w).1.nextTxnId = Device.init.nextTxnId ∧
      (pcieVipRealize w).1.reader = true ∧
      ∃ n : Nat, (pcieVipRealize w).1.fd = n ∧ (pcieVipRealize w).1.sockets = [n] := by
  rcases pcieVipRealize_cases w with ⟨e, -, hw⟩ | ⟨n, -, ⟨-, hw⟩ | ⟨-, hw | hw⟩⟩
  · rw [hw] at h
    cases h
  · rw [hw] at h
    cases h
  · rw [hw] at h
    cases h
  · rw [hw]
    exact ⟨rfl, rfl, rfl, n, rfl, rfl⟩

end Qemu
end Vip
