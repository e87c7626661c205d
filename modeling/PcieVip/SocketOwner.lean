import PcieVip.LibOwn
import PcieVip.LibRun
import PcieVip.Socket
/-!
# SocketOwner — the descriptors of `UnixSocket` and `UnixListener` (`mini-ics/src/socket.cpp`)

Each operation as the system calls it makes and what it leaves in its objects; -1 is `none`.  A program declares
variables of the two classes, moves them, calls their operations and ends their lives, in any order.  What the kernel
answers is data; a descriptor it hands out is not open, so a number comes again once it was closed.

Every descriptor that is open has exactly one owner, and none is closed that is not its closer's own, in every program.
One operation lets go of a descriptor without closing it: a `Listen` that succeeds on a listener that listens already
(`descriptors_owned`).  Where no listener is used twice and no two share a path, the path of a listener is bound to its
own socket, and its file goes with it (`names_owned`).
-/
namespace Vip
namespace Sockets

open Own Run
open Function (update)
open Ics (IoStatus PollRet pollFor)

/-! ## System calls -/

inductive Sys where
  | socket (fd : Nat)
  | accept (fd : Nat)
  | bind (fd : Nat) (path : String)
  | unlink (path : String)
  | close (fd : Nat)
  deriving DecidableEq, Repr

def Sys.bound? : Sys → Option (String × Nat)
  | .bind fd path => some (path, fd)
  | _             => none

def Sys.use? : Sys → Option (Use Nat)
  | .socket fd => some (.acquire fd)
  | .accept fd => some (.acquire fd)
  | .close fd  => some (.release fd)
  | _          => none

/-- The socket files, each with the descriptor it was bound to.  The empty path is none. -/
def Sys.names (ns : List (String × Nat)) : Sys → List (String × Nat)
  | .bind fd path => if path = "" then ns else (path, fd) :: ns
  | .unlink path  => ns.filter (fun n => n.1 ≠ path)
  | _             => ns

/-! ## UnixSocket -/

structure UnixSocket where
  fd : Option Nat := none
  deriving DecidableEq, Repr

def UnixSocket.close (x : UnixSocket) : UnixSocket × List Sys :=
  match x.fd with
  | none    => (x, [])
  | some fd => (⟨none⟩, [.close fd])

/-- `this = std::move(other)` for another object: this, the other, and the calls. -/
def UnixSocket.assign (this other : UnixSocket) : UnixSocket × UnixSocket × List Sys :=
  (⟨other.fd⟩, ⟨none⟩, this.close.2)

/-! ## UnixListener -/

structure UnixListener where
  fd   : Option Nat := none
  path : String := ""
  deriving DecidableEq, Repr

def UnixListener.close (l : UnixListener) : UnixListener × List Sys :=
  match l.fd with
  | none    => (l, [])
  | some fd => (⟨none, ""⟩, .close fd :: if l.path ≠ "" then [.unlink l.path] else [])

def UnixListener.assign (this other : UnixListener) : UnixListener × UnixListener × List Sys :=
  (⟨other.fd, other.path⟩, ⟨none, ""⟩, this.close.2)

def sunPathSize : Nat := 108

structure ListenRets where
  socket  : Option Nat
  binds   : Bool := true
  listens : Bool := true
  deriving DecidableEq, Repr

def UnixListener.listen (l : UnixListener) (path : String) (k : ListenRets) : Bool × UnixListener × List Sys :=
  match k.socket with
  | none    => (false, l, [])
  | some fd =>
    if path.utf8ByteSize ≥ sunPathSize then (false, l, [.socket fd, .close fd])
    else if !k.binds then (false, l, [.socket fd, .unlink path, .close fd])
    else if !k.listens then (false, l, [.socket fd, .unlink path, .bind fd path, .close fd])
    else (true, ⟨some fd, path⟩, [.socket fd, .unlink path, .bind fd path])

/-- `polls` and `accepted` are what `poll` and `accept` return. -/
def UnixListener.accept (polls : List PollRet) (accepted : Option Nat) (out : UnixSocket) :
    IoStatus × UnixSocket × List Sys :=
  let wait := pollFor polls
  if wait ≠ .ok then (wait, out, [])
  else
    match accepted with
    | none    => (.error, out, [])
    | some fd =>
      let a := out.assign ⟨some fd⟩
      (.ok, a.1, .accept fd :: a.2.2)

/-! ## ConnectUnixSocket -/

inductive ConnectRet where
  | connected | inProgress | failed
  deriving DecidableEq, Repr

/-- `soError` is whether `getsockopt` succeeds and finds no error. -/
structure ConnectRets where
  socket  : Option Nat
  connect : ConnectRet := .connected
  polls   : List PollRet := []
  soError : Bool := true
  deriving DecidableEq, Repr

/-- The two `fcntl` calls change no descriptor. -/
def connectUnixSocket (path : String) (k : ConnectRets) (out : UnixSocket) : IoStatus × UnixSocket × List Sys :=
  match k.socket with
  | none    => (.error, out, [])
  | some fd =>
    if path.utf8ByteSize ≥ sunPathSize then (.error, out, [.socket fd, .close fd])
    else
      let a := out.assign ⟨some fd⟩
      match k.connect with
      | .connected  => (.ok, a.1, .socket fd :: a.2.2)
      | .failed     => (.error, out, [.socket fd, .close fd])
      | .inProgress =>
        let wait := pollFor k.polls
        if wait ≠ .ok then (wait, out, [.socket fd, .close fd])
        else if !k.soError then (.error, out, [.socket fd, .close fd])
        else (.ok, a.1, .socket fd :: a.2.2)

/-! ## Programs -/

/-- The objects; `temporary` is the one that an expression makes. -/
inductive Var where
  | socket (i : Nat)
  | listener (i : Nat)
  | temporary
  deriving DecidableEq, Repr

structure Process where
  sockets   : Nat → Option UnixSocket := fun _ => none
  listeners : Nat → Option UnixListener := fun _ => none
  table     : Ledger Nat := {}
  names     : List (String × Nat) := []
  -- history
  lost      : List Nat := []
  halfBound : List (String × Nat) := []

def Process.call (s : Process) (c : Sys) : Process :=
  { s with table := s.table.useAll c.use?.toList, names := c.names s.names }

def Process.calls (s : Process) (cs : List Sys) : Process := cs.foldl Process.call s

def Process.setSocket (s : Process) (i : Nat) (x : Option UnixSocket) : Process :=
  { s with sockets := update s.sockets i x }

def Process.setListener (s : Process) (i : Nat) (l : Option UnixListener) : Process :=
  { s with listeners := update s.listeners i l }

inductive Op where
  /-- `UnixSocket x;`, and `UnixSocket x(fd);` for a descriptor that has just been made elsewhere. -/
  | socket (i : Nat) (fd : Option Nat)
  /-- `UnixSocket x(std::move(y));` and `x = std::move(y);`. -/
  | moveSocket (i j : Nat)
  | assignSocket (i j : Nat)
  | closeSocket (i : Nat)
  | endSocket (i : Nat)
  | listener (i : Nat)
  | moveListener (i j : Nat)
  | assignListener (i j : Nat)
  | closeListener (i : Nat)
  | endListener (i : Nat)
  | listen (i : Nat) (path : String) (k : ListenRets)
  | accept (i j : Nat) (polls : List PollRet) (accepted : Option Nat)
  | connect (i : Nat) (path : String) (k : ConnectRets)
  deriving DecidableEq, Repr

/-- The kernel hands out what is not open. -/
def Process.fresh (s : Process) (fd : Option Nat) : Bool := fd.all (fun fd => fd ∉ s.table.live)

/-- What a `listen` leaves behind: the descriptor the listener had, and a file nobody listens on. -/
def Process.afterListen (s : Process) (i : Nat) (l : UnixListener) (path : String) (k : ListenRets) : Process :=
  let r := l.listen path k
  let s := { s.calls r.2.2 with
    lost := if r.1 then l.fd.toList ++ s.lost else s.lost
    halfBound := if r.1 then s.halfBound else r.2.2.filterMap Sys.bound? ++ s.halfBound }
  s.setListener i (some r.2.1)

def step (s : Process) : Op → Option Process
  | .socket i fd        =>
    if (s.sockets i).isSome || !s.fresh fd then none
    else some ((s.calls (fd.toList.map .socket)).setSocket i (some ⟨fd⟩))
  | .moveSocket i j     =>
    match s.sockets i, s.sockets j with
    | none, some y => some ((s.setSocket j (some ⟨none⟩)).setSocket i (some ⟨y.fd⟩))
    | _, _         => none
  | .assignSocket i j   =>
    match s.sockets i, s.sockets j with
    | some x, some y =>
      if i = j then some s
      else
        let a := x.assign y
        some (((s.calls a.2.2).setSocket j (some a.2.1)).setSocket i (some a.1))
    | _, _           => none
  | .closeSocket i      =>
    (s.sockets i).map (fun x => (s.calls x.close.2).setSocket i (some x.close.1))
  | .endSocket i        =>
    (s.sockets i).map (fun x => (s.calls x.close.2).setSocket i none)
  | .listener i         =>
    if (s.listeners i).isSome then none else some (s.setListener i (some {}))
  | .moveListener i j   =>
    match s.listeners i, s.listeners j with
    | none, some y => some ((s.setListener j (some ⟨none, ""⟩)).setListener i (some ⟨y.fd, y.path⟩))
    | _, _         => none
  | .assignListener i j =>
    match s.listeners i, s.listeners j with
    | some x, some y =>
      if i = j then some s
      else
        let a := x.assign y
        some (((s.calls a.2.2).setListener j (some a.2.1)).setListener i (some a.1))
    | _, _           => none
  | .closeListener i    =>
    (s.listeners i).map (fun l => (s.calls l.close.2).setListener i (some l.close.1))
  | .endListener i      =>
    (s.listeners i).map (fun l => (s.calls l.close.2).setListener i none)
  | .listen i path k    =>
    if s.fresh k.socket then (s.listeners i).map (fun l => s.afterListen i l path k) else none
  | .accept i j polls accepted =>
    match s.listeners i, s.sockets j with
    | some _, some x =>
      if s.fresh accepted then
        let r := UnixListener.accept polls accepted x
        some ((s.calls r.2.2).setSocket j (some r.2.1))
      else none
    | _, _           => none
  | .connect i path k   =>
    if s.fresh k.socket then
      (s.sockets i).map (fun x =>
        let r := connectUnixSocket path k x
        (s.calls r.2.2).setSocket i (some r.2.1))
    else none

def Process.holds (s : Process) : Var → Option Nat
  | .socket i   => (s.sockets i).bind UnixSocket.fd
  | .listener i => (s.listeners i).bind UnixListener.fd
  | .temporary  => none

/-! ## What the operations do to the owners -/

theorem holds_setSocket (s : Process) (i : Nat) (x : Option UnixSocket) :
    (s.setSocket i x).holds = update s.holds (.socket i) (x.bind UnixSocket.fd) := by
  funext k
  cases k with
  | socket j   =>
    by_cases hj : j = i
    · subst hj
      simp [Process.holds, Process.setSocket]
    · simp [Process.holds, Process.setSocket, hj]
  | listener j => rfl
  | temporary  => rfl

theorem holds_setListener (s : Process) (i : Nat) (l : Option UnixListener) :
    (s.setListener i l).holds = update s.holds (.listener i) (l.bind UnixListener.fd) := by
  funext k
  cases k with
  | socket j   => rfl
  | listener j =>
    by_cases hj : j = i
    · subst hj
      simp [Process.holds, Process.setListener]
    · simp [Process.holds, Process.setListener, hj]
  | temporary  => rfl

theorem calls_eq : ∀ (cs : List Sys) (s : Process), s.calls cs = { s with
    table := s.table.useAll (cs.filterMap Sys.use?), names := cs.foldl Sys.names s.names }
  | [], _      => rfl
  | c :: cs, s => by
    rw [Process.calls, List.foldl_cons, ← Process.calls, calls_eq cs, Process.call, List.filterMap_cons]
    cases c.use? <;> rfl

theorem close_socket_use (x : UnixSocket) : x.close.2.filterMap Sys.use? = giveBack x.fd ∧ x.close.1.fd = none := by
  unfold UnixSocket.close
  cases hx : x.fd with
  | none   => exact ⟨rfl, hx⟩
  | some _ => exact ⟨rfl, rfl⟩

theorem close_listener_use (l : UnixListener) :
    l.close.2.filterMap Sys.use? = giveBack l.fd ∧ l.close.1.fd = none := by
  unfold UnixListener.close
  cases hl : l.fd with
  | none   => exact ⟨rfl, hl⟩
  | some _ =>
    refine ⟨?_, rfl⟩
    dsimp only
    split <;> rfl

theorem listen_cases (l : UnixListener) (path : String) (k : ListenRets) :
    ((l.listen path k).1 = false ∧ (l.listen path k).2.1 = l ∧ ((l.listen path k).2.2 = [] ∨
      ∃ fd, k.socket = some fd ∧ (l.listen path k).2.2.filterMap Sys.use? = [.acquire fd, .release fd])) ∨
    ∃ fd, k.socket = some fd ∧
      l.listen path k = (true, ⟨some fd, path⟩, [.socket fd, .unlink path, .bind fd path]) := by
  unfold UnixListener.listen
  cases k.socket with
  | none    => exact .inl ⟨rfl, rfl, .inl rfl⟩
  | some fd =>
    dsimp only
    split_ifs
    · exact .inl ⟨rfl, rfl, .inr ⟨fd, rfl, rfl⟩⟩
    · exact .inl ⟨rfl, rfl, .inr ⟨fd, rfl, rfl⟩⟩
    · exact .inl ⟨rfl, rfl, .inr ⟨fd, rfl, rfl⟩⟩
    · exact .inr ⟨fd, rfl, rfl⟩

/-- The kernel's table agrees with what the objects hold. -/
def Process.Owned (s : Process) : Prop := Owns s.holds s.lost s.table

section Steps

variable {s s' : Process} {i j fd : Nat}

theorem holds_socket {x : UnixSocket} (hx : s.sockets i = some x) : s.holds (.socket i) = x.fd := by
  rw [Process.holds, hx]
  rfl

theorem holds_listener {l : UnixListener} (hl : s.listeners i = some l) : s.holds (.listener i) = l.fd := by
  rw [Process.holds, hl]
  rfl

theorem Process.Owned.clearSocket (h : s.Owned) {x : UnixSocket} (hx : s.sockets i = some x)
    (y : Option UnixSocket) (hy : y.bind UnixSocket.fd = none) : ((s.calls x.close.2).setSocket i y).Owned := by
  have hclear := h.clear (.socket i)
  rw [holds_socket hx, ← (close_socket_use x).1] at hclear
  unfold Process.Owned
  rw [holds_setSocket, hy, calls_eq]
  exact hclear

theorem Process.Owned.clearListener (h : s.Owned) {l : UnixListener} (hl : s.listeners i = some l)
    (m : Option UnixListener) (hm : m.bind UnixListener.fd = none) :
    ((s.calls l.close.2).setListener i m).Owned := by
  have hclear := h.clear (.listener i)
  rw [holds_listener hl, ← (close_listener_use l).1] at hclear
  unfold Process.Owned
  rw [holds_setListener, hm, calls_eq]
  exact hclear

theorem Process.Owned.passSocket (h : s.Owned) {y : UnixSocket} (hi : s.holds (.socket i) = none)
    (hj : s.sockets j = some y) : ((s.setSocket j (some ⟨none⟩)).setSocket i (some ⟨y.fd⟩)).Owned := by
  have hmove := h.move (.socket j) hi
  rw [holds_socket hj] at hmove
  unfold Process.Owned
  rw [holds_setSocket, holds_setSocket]
  exact hmove

theorem Process.Owned.passListener (h : s.Owned) {m : UnixListener} (path : String)
    (hi : s.holds (.listener i) = none) (hj : s.listeners j = some m) :
    ((s.setListener j (some ⟨none, ""⟩)).setListener i (some ⟨m.fd, path⟩)).Owned := by
  have hmove := h.move (.listener j) hi
  rw [holds_listener hj] at hmove
  unfold Process.Owned
  rw [holds_setListener, holds_setListener]
  exact hmove

theorem sockets_setSocket (s : Process) (i j : Nat) (x : Option UnixSocket) :
    (s.setSocket i x).sockets j = if j = i then x else s.sockets j := Function.update_apply ..

theorem listeners_setListener (s : Process) (i j : Nat) (x : Option UnixListener) :
    (s.setListener i x).listeners j = if j = i then x else s.listeners j := Function.update_apply ..

theorem setSocket_twice (s : Process) (i : Nat) (x y : Option UnixSocket) :
    (s.setSocket i x).setSocket i y = s.setSocket i y := by
  unfold Process.setSocket
  rw [Function.update_idem]

theorem setSocket_comm (s : Process) (hij : i ≠ j) (x y : Option UnixSocket) :
    (s.setSocket i x).setSocket j y = (s.setSocket j y).setSocket i x := by
  unfold Process.setSocket
  rw [Function.update_comm hij]

theorem setListener_twice (s : Process) (i : Nat) (x y : Option UnixListener) :
    (s.setListener i x).setListener i y = s.setListener i y := by
  unfold Process.setListener
  rw [Function.update_idem]

theorem setListener_comm (s : Process) (hij : i ≠ j) (x y : Option UnixListener) :
    (s.setListener i x).setListener j y = (s.setListener j y).setListener i x := by
  unfold Process.setListener
  rw [Function.update_comm hij]

theorem Process.Owned.assignSocket (h : s.Owned) {x y : UnixSocket} (hij : i ≠ j) (hx : s.sockets i = some x)
    (hy : s.sockets j = some y) :
    (((s.calls (x.assign y).2.2).setSocket j (some (x.assign y).2.1)).setSocket i (some (x.assign y).1)).Owned := by
  have hclear := h.clearSocket hx (some ⟨none⟩) rfl
  have hpass := hclear.passSocket (i := i) (j := j) (y := y) (by rw [holds_setSocket, Function.update_self]; rfl)
    (by rw [sockets_setSocket, if_neg (Ne.symm hij), calls_eq]; exact hy)
  rw [setSocket_comm _ hij, setSocket_twice] at hpass
  exact hpass

theorem Process.Owned.assignListener (h : s.Owned) {x y : UnixListener} (hij : i ≠ j) (hx : s.listeners i = some x)
    (hy : s.listeners j = some y) :
    (((s.calls (x.assign y).2.2).setListener j (some (x.assign y).2.1)).setListener i
      (some (x.assign y).1)).Owned := by
  have hclear := h.clearListener hx (some ⟨none, ""⟩) rfl
  have hpass := hclear.passListener (i := i) (j := j) (m := y) y.path
    (by rw [holds_setListener, Function.update_self]; rfl)
    (by rw [listeners_setListener, if_neg (Ne.symm hij), calls_eq]; exact hy)
  rw [setListener_comm _ hij, setListener_twice] at hpass
  exact hpass

theorem Process.Owned.adopt (h : s.Owned) {x : UnixSocket} {c : Sys} (hx : s.sockets i = some x)
    (hc : c.use? = some (.acquire fd)) (hfd : fd ∉ s.table.live) :
    ((s.calls (c :: (x.assign ⟨some fd⟩).2.2)).setSocket i (some (x.assign ⟨some fd⟩).1)).Owned := by
  have htemp := h.acquire (k := .temporary) rfl hfd
  have hholds : update s.holds .temporary (some fd) (.socket i) = x.fd := by
    rw [Function.update_of_ne (fun hk => by cases hk)]
    exact holds_socket hx
  have hclear := htemp.clear (.socket i)
  have hmove := hclear.move (k := .socket i) .temporary (Function.update_self ..)
  rw [hholds] at hmove
  have hcalls : (c :: x.close.2).filterMap Sys.use? = .acquire fd :: giveBack x.fd := by
    rw [List.filterMap_cons, hc, (close_socket_use x).1]
  unfold Process.Owned
  rw [holds_setSocket, calls_eq, UnixSocket.assign, hcalls]
  have hsame : update (update (update (update s.holds .temporary (some fd)) (.socket i) none) .temporary none)
      (.socket i) (update (update s.holds .temporary (some fd)) (.socket i) none .temporary) =
        update s.holds (.socket i) (some fd) := by
    funext k
    cases k with
    | socket j   => by_cases hj : j = i <;> simp [hj]
    | listener j => simp
    | temporary  => rfl
  rw [hsame] at hmove
  exact hmove

theorem fresh_some (h : s.fresh (some fd) = true) : fd ∉ s.table.live := by
  unfold Process.fresh at h
  simpa using h

theorem Process.Owned.passing (h : s.Owned) {cs : List Sys} (hcs : cs.filterMap Sys.use? = [.acquire fd, .release fd])
    (hfd : fd ∉ s.table.live) : (s.calls cs).Owned := by
  have hpass := Owns.passing h hfd
  rw [← hcs] at hpass
  unfold Process.Owned
  rw [calls_eq]
  exact hpass

theorem Process.Owned.same {t : Process} (h : s.Owned) (hholds : t.holds = s.holds) (hlost : t.lost = s.lost)
    (htable : t.table = s.table) : t.Owned := by
  unfold Process.Owned
  rw [hholds, hlost, htable]
  exact h

theorem setSocket_self {x : UnixSocket} (hx : s.sockets i = some x) : s.setSocket i (some x) = s := by
  unfold Process.setSocket
  rw [Function.update_eq_self_iff.2 hx.symm]

theorem Process.Owned.afterListen (h : s.Owned) {l : UnixListener} {path : String} {k : ListenRets}
    (hl : s.listeners i = some l) (hf : s.fresh k.socket = true) : (s.afterListen i l path k).Owned := by
  unfold Process.afterListen
  dsimp only
  rcases listen_cases l path k with ⟨hr, hl', hcs⟩ | ⟨fd, hsock, hr⟩
  · have hcalls : (s.calls (l.listen path k).2.2).Owned := by
      rcases hcs with hcs | ⟨fd, hsock, hcs⟩
      · rw [hcs]
        exact h
      · rw [hsock] at hf
        exact h.passing hcs (fresh_some hf)
    have hlost : (if (l.listen path k).1 = true then l.fd.toList ++ s.lost else s.lost) = s.lost :=
      if_neg (by rw [hr]; exact Bool.false_ne_true)
    refine hcalls.same ?_ (hlost.trans (by rw [calls_eq])) rfl
    rw [holds_setListener, hl', calls_eq]
    exact Function.update_eq_self_iff.2 (holds_listener hl).symm
  · rw [hsock] at hf
    have hfd := fresh_some hf
    rw [hr]
    unfold Process.Owned
    rw [holds_setListener, calls_eq]
    cases hold : l.fd with
    | none     => exact h.acquire ((holds_listener hl).trans hold) hfd
    | some old =>
      have hlose := (h.lose ((holds_listener hl).trans hold)).acquire (k := .listener i) (Function.update_self ..) hfd
      rw [Function.update_idem] at hlose
      exact hlose

theorem Process.Owned.accept (h : s.Owned) {x : UnixSocket} {polls : List PollRet} {accepted : Option Nat}
    (hx : s.sockets j = some x) (hf : s.fresh accepted = true) :
    ((s.calls (UnixListener.accept polls accepted x).2.2).setSocket j
      (some (UnixListener.accept polls accepted x).2.1)).Owned := by
  unfold UnixListener.accept
  dsimp only
  split_ifs with hwait
  · rw [Process.calls, List.foldl_nil, setSocket_self hx]
    exact h
  · cases accepted with
    | none    =>
      dsimp only
      rw [Process.calls, List.foldl_nil, setSocket_self hx]
      exact h
    | some fd => exact h.adopt hx rfl (fresh_some hf)

theorem Process.Owned.connect (h : s.Owned) {x : UnixSocket} {path : String} {k : ConnectRets}
    (hx : s.sockets i = some x) (hf : s.fresh k.socket = true) :
    ((s.calls (connectUnixSocket path k x).2.2).setSocket i (some (connectUnixSocket path k x).2.1)).Owned := by
  unfold connectUnixSocket
  cases hsock : k.socket with
  | none    =>
    dsimp only
    rw [Process.calls, List.foldl_nil, setSocket_self hx]
    exact h
  | some fd =>
    rw [hsock] at hf
    have hfd := fresh_some hf
    have hfail : ((s.calls [.socket fd, .close fd]).setSocket i (some x)).Owned := by
      rw [setSocket_self (by rw [calls_eq]; exact hx)]
      exact h.passing rfl hfd
    dsimp only
    by_cases hlong : path.utf8ByteSize ≥ sunPathSize
    · rw [if_pos hlong]
      exact hfail
    · rw [if_neg hlong]
      cases k.connect with
      | connected  => exact h.adopt hx rfl hfd
      | failed     => exact hfail
      | inProgress =>
        dsimp only
        split_ifs
        · exact hfail
        · exact hfail
        · exact h.adopt hx rfl hfd

/-- **Every operation keeps the owners.** -/
theorem step_owned {o : Op} (h : s.Owned) (hs : step s o = some s') : s'.Owned := by
  cases o with
  | socket i fd        =>
    simp only [step] at hs
    split_ifs at hs with hcond
    cases hs
    rw [Bool.or_eq_true, not_or, Bool.not_eq_true, Option.isSome_eq_false_iff, Option.isNone_iff_eq_none] at hcond
    have hnone : s.holds (.socket i) = none := by rw [Process.holds, hcond.1]; rfl
    unfold Process.Owned
    rw [holds_setSocket, calls_eq]
    cases fd with
    | none    =>
      have hkeep : update s.holds (.socket i) none = s.holds := Function.update_eq_self_iff.2 hnone.symm
      change Owns (update s.holds (.socket i) none) s.lost s.table
      rw [hkeep]
      exact h
    | some fd => exact h.acquire hnone (fresh_some (by simpa using hcond.2))
  | moveSocket i j     =>
    simp only [step] at hs
    split at hs
    · rename_i y hi hj
      cases hs
      exact h.passSocket (by rw [Process.holds, hi]; rfl) hj
    · cases hs
  | assignSocket i j   =>
    simp only [step] at hs
    split at hs
    · rename_i x y hx hy
      split_ifs at hs with hij
      · cases hs
        exact h
      · cases hs
        exact h.assignSocket hij hx hy
    · cases hs
  | closeSocket i      =>
    obtain ⟨x, hx, rfl⟩ := Option.map_eq_some_iff.1 hs
    exact h.clearSocket hx _ (close_socket_use x).2
  | endSocket i        =>
    obtain ⟨x, hx, rfl⟩ := Option.map_eq_some_iff.1 hs
    exact h.clearSocket hx none rfl
  | listener i         =>
    simp only [step] at hs
    split_ifs at hs with hcond
    cases hs
    rw [Bool.not_eq_true, Option.isSome_eq_false_iff, Option.isNone_iff_eq_none] at hcond
    refine h.same ?_ rfl rfl
    rw [holds_setListener]
    exact Function.update_eq_self_iff.2 (by rw [Process.holds, hcond]; rfl)
  | moveListener i j   =>
    simp only [step] at hs
    split at hs
    · rename_i y hi hj
      cases hs
      exact h.passListener y.path (by rw [Process.holds, hi]; rfl) hj
    · cases hs
  | assignListener i j =>
    simp only [step] at hs
    split at hs
    · rename_i x y hx hy
      split_ifs at hs with hij
      · cases hs
        exact h
      · cases hs
        exact h.assignListener hij hx hy
    · cases hs
  | closeListener i    =>
    obtain ⟨l, hl, rfl⟩ := Option.map_eq_some_iff.1 hs
    exact h.clearListener hl _ (close_listener_use l).2
  | endListener i      =>
    obtain ⟨l, hl, rfl⟩ := Option.map_eq_some_iff.1 hs
    exact h.clearListener hl none rfl
  | listen i path k    =>
    simp only [step] at hs
    split_ifs at hs with hf
    obtain ⟨l, hl, rfl⟩ := Option.map_eq_some_iff.1 hs
    exact h.afterListen hl hf
  | accept i j polls accepted =>
    simp only [step] at hs
    split at hs
    · rename_i l x hl hx
      split_ifs at hs with hf
      cases hs
      exact h.accept hx hf
    · cases hs
  | connect i path k   =>
    simp only [step] at hs
    split_ifs at hs with hf
    obtain ⟨x, hx, rfl⟩ := Option.map_eq_some_iff.1 hs
    exact h.connect hx hf

end Steps

/-! ## Every descriptor has one owner -/

/-- A `Listen` that succeeds on a listener that listens. -/
def Relistens (s : Process) : Op → Prop
  | .listen i path k => ∃ l, s.listeners i = some l ∧ l.fd ≠ none ∧ (l.listen path k).1 = true
  | _                => False

theorem step_lost {s s' : Process} {o : Op} (hs : step s o = some s') :
    s'.lost = [] ↔ s.lost = [] ∧ ¬ Relistens s o := by
  have hsame : ∀ {t : Process}, s' = t → t.lost = s.lost → ¬ Relistens s o →
      (s'.lost = [] ↔ s.lost = [] ∧ ¬ Relistens s o) := by
    rintro t rfl ht hr
    rw [ht]
    exact ⟨fun h => ⟨h, hr⟩, And.left⟩
  cases o with
  | listen i path k    =>
    simp only [step] at hs
    split_ifs at hs with hf
    obtain ⟨l, hl, rfl⟩ := Option.map_eq_some_iff.1 hs
    have hrel : Relistens s (.listen i path k) ↔ l.fd ≠ none ∧ (l.listen path k).1 = true := by
      constructor
      · rintro ⟨l', hl', h⟩
        rw [hl] at hl'
        cases hl'
        exact h
      · exact fun h => ⟨l, hl, h⟩
    have hlost : (s.afterListen i l path k).lost = if (l.listen path k).1 then l.fd.toList ++ s.lost else s.lost := rfl
    rw [hrel, hlost]
    cases (l.listen path k).1 with
    | true  => cases l.fd <;> simp
    | false => simp
  | socket i fd        =>
    simp only [step] at hs
    split_ifs at hs
    exact hsame (Option.some.inj hs).symm (by rw [calls_eq]; rfl) id
  | moveSocket i j     =>
    simp only [step] at hs
    split at hs
    · exact hsame (Option.some.inj hs).symm rfl id
    · cases hs
  | assignSocket i j   =>
    simp only [step] at hs
    split at hs
    · split_ifs at hs
      · exact hsame (Option.some.inj hs).symm rfl id
      · exact hsame (Option.some.inj hs).symm (by rw [calls_eq]; rfl) id
    · cases hs
  | closeSocket i      =>
    obtain ⟨x, hx, rfl⟩ := Option.map_eq_some_iff.1 hs
    exact hsame rfl (by rw [calls_eq]; rfl) id
  | endSocket i        =>
    obtain ⟨x, hx, rfl⟩ := Option.map_eq_some_iff.1 hs
    exact hsame rfl (by rw [calls_eq]; rfl) id
  | listener i         =>
    simp only [step] at hs
    split_ifs at hs
    exact hsame (Option.some.inj hs).symm rfl id
  | moveListener i j   =>
    simp only [step] at hs
    split at hs
    · exact hsame (Option.some.inj hs).symm rfl id
    · cases hs
  | assignListener i j =>
    simp only [step] at hs
    split at hs
    · split_ifs at hs
      · exact hsame (Option.some.inj hs).symm rfl id
      · exact hsame (Option.some.inj hs).symm (by rw [calls_eq]; rfl) id
    · cases hs
  | closeListener i    =>
    obtain ⟨l, hl, rfl⟩ := Option.map_eq_some_iff.1 hs
    exact hsame rfl (by rw [calls_eq]; rfl) id
  | endListener i      =>
    obtain ⟨l, hl, rfl⟩ := Option.map_eq_some_iff.1 hs
    exact hsame rfl (by rw [calls_eq]; rfl) id
  | accept i j polls accepted =>
    simp only [step] at hs
    split at hs
    · split_ifs at hs
      exact hsame (Option.some.inj hs).symm (by rw [calls_eq]; rfl) id
    · cases hs
  | connect i path k   =>
    simp only [step] at hs
    split_ifs at hs
    obtain ⟨x, hx, rfl⟩ := Option.map_eq_some_iff.1 hs
    exact hsame rfl (by rw [calls_eq]; rfl) id

theorem run_lost : ∀ (os : List Op) {s s' : Process}, run step s os = some s' →
    (s'.lost = [] ↔ s.lost = [] ∧ Along step (fun s o => ¬ Relistens s o) s os)
  | [], _, _, h      => by
    cases h
    exact ⟨fun h => ⟨h, trivial⟩, And.left⟩
  | o :: os, s, s', h => by
    obtain ⟨t, ht, hrun⟩ := run_cons h
    rw [run_lost os hrun, step_lost ht, and_assoc]
    refine and_congr_right fun _ => and_congr_right fun _ => ⟨fun ha u hu => ?_, fun ha => ha t ht⟩
    rw [Option.mem_def, ht] at hu
    cases hu
    exact ha

structure DescriptorsOwned (os : List Op) (s : Process) : Prop where
  /-- Nothing was closed that was not open. -/
  sound   : s.table.faults = []
  /-- A descriptor was closed as often as it was made, or once less while it is open. -/
  once    : ∀ fd, s.table.uses.count (.acquire fd) =
    s.table.uses.count (.release fd) + if fd ∈ s.table.live then 1 else 0
  open_iff : ∀ fd, fd ∈ s.table.live ↔ (∃ v, s.holds v = some fd) ∨ fd ∈ s.lost
  unique  : ∀ v v' fd, s.holds v = some fd → s.holds v' = some fd → v = v'
  lost    : s.lost = [] ↔ Along step (fun s o => ¬ Relistens s o) {} os
  /-- When the variables are gone, so are the descriptors. -/
  closed  : (∀ v, s.holds v = none) → Along step (fun s o => ¬ Relistens s o) {} os → s.table.live = []

/-- **Every open descriptor has one owner, in every program** whose descriptors for `UnixSocket(int)` have just been
made: such a one counts as made there, and is not open before. -/
theorem descriptors_owned {os : List Op} {s : Process} (h : run step {} os = some s) : DescriptorsOwned os s := by
  have hinit : ({} : Process).Owned := by
    have hholds : ({} : Process).holds = fun _ => none := by
      funext v
      cases v <;> rfl
    unfold Process.Owned
    rw [hholds]
    exact Owns.init
  have hown : s.Owned := run_invariant (fun _ _ _ hi hs => step_owned hi hs) os {} s hinit h
  have hlost := run_lost os h
  rw [and_iff_right (show ({} : Process).lost = [] from rfl)] at hlost
  refine ⟨hown.sound, fun fd => ?_, hown.live_iff, hown.unique, hlost, fun hnone ha => ?_⟩
  · rw [hown.balanced.2 hown.sound fd, hown.balanced.1.count]
  · have hown : Owns s.holds s.lost s.table := hown
    rw [hlost.2 ha] at hown
    exact hown.none_live hnone

/-- A session whose second socket takes over the first one's variable; and a listener that listens twice. -/
theorem descriptors_owned_session :
    let ready : List PollRet := [.revents false false false true]
    let os : List Op := [.listener 0, .listen 0 "/s" ⟨some 3, true, true⟩, .socket 0 none, .accept 0 0 ready (some 4),
      .socket 1 none, .connect 1 "/s" ⟨some 5, .connected, [], true⟩, .assignSocket 0 1, .endSocket 1, .closeListener 0,
      .connect 0 "/s" ⟨some 3, .failed, [], true⟩, .endSocket 0, .endListener 0]
    let os' : List Op :=
      [.listener 0, .listen 0 "/s" ⟨some 3, true, true⟩, .listen 0 "/t" ⟨some 4, true, true⟩, .endListener 0]
    (∃ s, run step {} os = some s ∧ s.table.live = [] ∧ s.lost = [] ∧ s.names = [] ∧ DescriptorsOwned os s) ∧
      ∃ s, run step {} os' = some s ∧ s.table.live = [3] ∧ s.lost = [3] ∧ s.names = [("/s", 3)] ∧
        DescriptorsOwned os' s := by
  intro ready os os'
  have hrun : (run step {} os).map (fun s => (s.table.live, s.lost, s.names)) = some ([], [], []) := by decide +kernel
  have hrun' : (run step {} os').map (fun s => (s.table.live, s.lost, s.names)) =
      some ([3], [3], [("/s", 3)]) := by decide +kernel
  obtain ⟨s, hs, heq⟩ := Option.map_eq_some_iff.1 hrun
  obtain ⟨s', hs', heq'⟩ := Option.map_eq_some_iff.1 hrun'
  simp only [Prod.mk.injEq] at heq heq'
  exact ⟨⟨s, hs, heq.1, heq.2.1, heq.2.2, descriptors_owned hs⟩,
    s', hs', heq'.1, heq'.2.1, heq'.2.2, descriptors_owned hs'⟩

/-! ## The path of a listener -/

def Process.serving (s : Process) (i : Nat) : Option (String × Nat) :=
  (s.listeners i).bind (fun l => l.fd.map (l.path, ·))

/-- The listeners' files; what else there is was left by a `listen` that failed. -/
structure Names (f : Nat → Option (String × Nat)) (names halfBound : List (String × Nat)) : Prop where
  bound    : ∀ i path fd, f i = some (path, fd) → path ≠ "" → ∀ fd', (path, fd') ∈ names ↔ fd' = fd
  distinct : ∀ i j path fd fd', f i = some (path, fd) → f j = some (path, fd') → path ≠ "" → i = j
  named    : ∀ n ∈ names, n.1 ≠ "" ∧ ((∃ i, f i = some n) ∨ n ∈ halfBound)

namespace Names

variable {f : Nat → Option (String × Nat)} {names halfBound : List (String × Nat)} {i j fd : Nat} {path : String}

theorem mem_unlink {n : String × Nat} : n ∈ Sys.names names (.unlink path) ↔ n ∈ names ∧ n.1 ≠ path := by
  simp [Sys.names]

theorem mem_bind {n : String × Nat} : n ∈ Sys.names names (.bind fd path) ↔ path ≠ "" ∧ n = (path, fd) ∨ n ∈ names := by
  unfold Sys.names
  dsimp only
  split_ifs with hp
  · simp [hp]
  · simp [hp]

theorem unlink (h : Names f names halfBound) (hfree : path ≠ "" → ∀ k fd, f k ≠ some (path, fd)) :
    Names f (Sys.names names (.unlink path)) halfBound := by
  refine ⟨fun k p d hk hp d' => ?_, h.distinct, fun n hn => h.named n (mem_unlink.1 hn).1⟩
  rw [mem_unlink, h.bound k p d hk hp]
  refine and_iff_left ?_
  rintro rfl
  exact hfree hp k d hk

theorem bind (h : Names f names halfBound) (hi : f i = none) (hfree : path ≠ "" → ∀ k fd, f k ≠ some (path, fd))
    (hnone : ∀ n ∈ names, n.1 ≠ path) :
    Names (update f i (some (path, fd))) (Sys.names names (.bind fd path)) halfBound := by
  have hback : ∀ {k p d}, update f i (some (path, fd)) k = some (p, d) →
      k = i ∧ p = path ∧ d = fd ∨ k ≠ i ∧ f k = some (p, d) := by
    intro k p d hk
    rw [Function.update_apply] at hk
    split_ifs at hk with hki
    · cases hk
      exact .inl ⟨hki, rfl, rfl⟩
    · exact .inr ⟨hki, hk⟩
  refine ⟨fun k p d hk hp d' => ?_, fun k k' p d d' hk hk' hp => ?_, fun n hn => ?_⟩
  · rw [mem_bind]
    rcases hback hk with ⟨-, rfl, rfl⟩ | ⟨-, hk⟩
    · constructor
      · rintro (⟨-, heq⟩ | hmem)
        · exact congrArg Prod.snd heq
        · exact absurd rfl (hnone _ hmem)
      · rintro rfl
        exact .inl ⟨hp, rfl⟩
    · rw [h.bound k p d hk hp]
      refine or_iff_right ?_
      rintro ⟨hp', heq⟩
      cases heq
      exact hfree hp' k d hk
  · rcases hback hk with ⟨hki, hkp, -⟩ | ⟨-, hf⟩ <;> rcases hback hk' with ⟨hki', hkp', -⟩ | ⟨-, hf'⟩
    · rw [hki, hki']
    · subst hkp
      exact absurd hf' (hfree hp k' d')
    · subst hkp'
      exact absurd hf (hfree hp k d)
    · exact h.distinct k k' p d d' hf hf' hp
  · rcases mem_bind.1 hn with ⟨hp, rfl⟩ | hn
    · exact ⟨hp, .inl ⟨i, Function.update_self ..⟩⟩
    · obtain ⟨hne, ⟨k, hk⟩ | hhalf⟩ := h.named n hn
      · refine ⟨hne, .inl ⟨k, ?_⟩⟩
        rw [Function.update_of_ne (by rintro rfl; rw [hi] at hk; cases hk)]
        exact hk
      · exact ⟨hne, .inr hhalf⟩

theorem halfBind (h : Names f names halfBound) (hfree : path ≠ "" → ∀ k fd, f k ≠ some (path, fd)) :
    Names f (Sys.names names (.bind fd path)) ((path, fd) :: halfBound) := by
  refine ⟨fun k p d hk hp d' => ?_, h.distinct, fun n hn => ?_⟩
  · rw [mem_bind, h.bound k p d hk hp]
    refine or_iff_right ?_
    rintro ⟨hp', heq⟩
    cases heq
    exact hfree hp' k d hk
  · rcases mem_bind.1 hn with ⟨hp, rfl⟩ | hn
    · exact ⟨hp, .inr List.mem_cons_self⟩
    · exact ⟨(h.named n hn).1, (h.named n hn).2.imp_right (List.mem_cons_of_mem _)⟩

theorem drop (h : Names f names halfBound) (hi : f i = some (path, fd)) :
    Names (update f i none) (if path ≠ "" then Sys.names names (.unlink path) else names) halfBound := by
  have hback : ∀ {k n}, update f i none k = some n → k ≠ i ∧ f k = some n := by
    intro k n hk
    rw [Function.update_apply] at hk
    split_ifs at hk with hki
    exact ⟨hki, hk⟩
  have hmem : ∀ n, n ∈ (if path ≠ "" then Sys.names names (.unlink path) else names) ↔ n ∈ names ∧ n.1 ≠ path := by
    intro n
    split_ifs with hp
    · exact mem_unlink
    · rw [not_not] at hp
      subst hp
      exact ⟨fun hn => ⟨hn, (h.named n hn).1⟩, And.left⟩
  refine ⟨fun k p d hk hp d' => ?_, fun k k' p d d' hk hk' hp => ?_, fun n hn => ?_⟩
  · obtain ⟨hki, hk⟩ := hback hk
    rw [hmem, h.bound k p d hk hp]
    refine and_iff_left ?_
    rintro rfl
    exact hki (h.distinct k i _ d fd hk hi hp)
  · exact h.distinct k k' p d d' (hback hk).2 (hback hk').2 hp
  · obtain ⟨hn, hne⟩ := (hmem n).1 hn
    obtain ⟨hempty, ⟨k, hk⟩ | hhalf⟩ := h.named n hn
    · refine ⟨hempty, .inl ⟨k, ?_⟩⟩
      rw [Function.update_of_ne]
      · exact hk
      · rintro rfl
        rw [hi] at hk
        cases hk
        exact hne rfl
    · exact ⟨hempty, .inr hhalf⟩

theorem move (h : Names f names halfBound) (hi : f i = none) :
    Names (update (update f j none) i (f j)) names halfBound := by
  refine ⟨fun k p d hk hp => ?_, fun k k' p d d' hk hk' hp => ?_, fun n hn => ?_⟩
  · obtain ⟨k₀, hk₀, -⟩ := of_move hk
    exact h.bound k₀ p d hk₀ hp
  · obtain ⟨k₀, hk₀, hk⟩ := of_move hk
    obtain ⟨k₁, hk₁, hk'⟩ := of_move hk'
    cases h.distinct k₀ k₁ p d d' hk₀ hk₁ hp
    exact move_unique hk hk'
  · obtain ⟨hne, ⟨k, hk⟩ | hhalf⟩ := h.named n hn
    · exact ⟨hne, .inl (to_move hi hk)⟩
    · exact ⟨hne, .inr hhalf⟩

end Names

/-- No listener listens twice, and none listens on the path of another. -/
def Apart (s : Process) : Op → Prop
  | .listen i path _ => s.serving i = none ∧ (path ≠ "" → ∀ j fd, s.serving j ≠ some (path, fd))
  | _                => True

def Sys.isFile : Sys → Bool
  | .bind _ _ => true
  | .unlink _ => true
  | _         => false

theorem foldl_names : ∀ {cs : List Sys} (ns : List (String × Nat)), (cs.all fun c => !c.isFile) = true →
    cs.foldl Sys.names ns = ns
  | [], _, _       => rfl
  | c :: cs, ns, h => by
    rw [List.all_cons, Bool.and_eq_true] at h
    have hc : c.names ns = ns := by
      cases c with
      | bind fd path => cases h.1
      | unlink path  => cases h.1
      | _            => rfl
    rw [List.foldl_cons, hc]
    exact foldl_names ns h.2

theorem close_plain (x : UnixSocket) : (x.close.2.all fun c => !c.isFile) = true := by
  unfold UnixSocket.close
  cases x.fd <;> rfl

theorem accept_plain (polls : List PollRet) (accepted : Option Nat) (out : UnixSocket) :
    ((UnixListener.accept polls accepted out).2.2.all fun c => !c.isFile) = true := by
  unfold UnixListener.accept
  dsimp only
  split_ifs
  · rfl
  · cases accepted with
    | none    => rfl
    | some fd => exact close_plain out

theorem connect_plain (path : String) (k : ConnectRets) (out : UnixSocket) :
    ((connectUnixSocket path k out).2.2.all fun c => !c.isFile) = true := by
  unfold connectUnixSocket
  cases k.socket with
  | none    => rfl
  | some fd =>
    dsimp only
    by_cases hlong : path.utf8ByteSize ≥ sunPathSize
    · rw [if_pos hlong]
      rfl
    · rw [if_neg hlong]
      cases k.connect with
      | connected  => exact close_plain out
      | failed     => rfl
      | inProgress =>
        dsimp only
        split_ifs
        · rfl
        · rfl
        · exact close_plain out

theorem serving_setListener (s : Process) (i : Nat) (l : Option UnixListener) :
    (s.setListener i l).serving = update s.serving i (l.bind fun l => l.fd.map (l.path, ·)) := by
  funext j
  by_cases hj : j = i
  · subst hj
    simp [Process.serving, Process.setListener]
  · simp [Process.serving, Process.setListener, hj]

theorem listen_eq (l : UnixListener) (path : String) (k : ListenRets) :
    (∃ cs, l.listen path k = (false, l, cs) ∧ (cs = [] ∨ ∃ fd, cs = [.socket fd, .close fd])) ∨
    (∃ fd, l.listen path k = (false, l, [.socket fd, .unlink path, .close fd])) ∨
    (∃ fd, l.listen path k = (false, l, [.socket fd, .unlink path, .bind fd path, .close fd])) ∨
    ∃ fd, l.listen path k = (true, ⟨some fd, path⟩, [.socket fd, .unlink path, .bind fd path]) := by
  unfold UnixListener.listen
  cases k.socket with
  | none    => exact .inl ⟨[], rfl, .inl rfl⟩
  | some fd =>
    dsimp only
    split_ifs
    · exact .inl ⟨_, rfl, .inr ⟨fd, rfl⟩⟩
    · exact .inr (.inl ⟨fd, rfl⟩)
    · exact .inr (.inr (.inl ⟨fd, rfl⟩))
    · exact .inr (.inr (.inr ⟨fd, rfl⟩))

def Process.Named (s : Process) : Prop := Names s.serving s.names s.halfBound

section NameSteps

variable {s s' : Process} {i j : Nat}

theorem serving_listener {l : UnixListener} (hl : s.listeners i = some l) : s.serving i = l.fd.map (l.path, ·) := by
  rw [Process.serving, hl]
  rfl

theorem Process.Named.clear (h : s.Named) {l : UnixListener} (hl : s.listeners i = some l) (m : Option UnixListener)
    (hm : (m.bind fun l => l.fd.map (l.path, ·)) = none) : ((s.calls l.close.2).setListener i m).Named := by
  unfold Process.Named
  rw [serving_setListener, hm, calls_eq]
  unfold UnixListener.close
  cases hfd : l.fd with
  | none    =>
    have hnone : s.serving i = none := by rw [serving_listener hl, hfd]; rfl
    have hkeep : update s.serving i none = s.serving := Function.update_eq_self_iff.2 hnone.symm
    change Names (update s.serving i none) s.names s.halfBound
    rw [hkeep]
    exact h
  | some fd =>
    have hsome : s.serving i = some (l.path, fd) := by rw [serving_listener hl, hfd]; rfl
    have hdrop := Names.drop h hsome
    change Names (update s.serving i none) (List.foldl Sys.names s.names
      (.close fd :: if l.path ≠ "" then [.unlink l.path] else [])) s.halfBound
    split_ifs at hdrop ⊢ with hp
    · exact hdrop
    · exact hdrop

theorem Process.Named.pass (h : s.Named) {m : UnixListener} (hi : s.serving i = none) (hj : s.listeners j = some m) :
    ((s.setListener j (some ⟨none, ""⟩)).setListener i (some ⟨m.fd, m.path⟩)).Named := by
  have hmove := Names.move (j := j) h hi
  rw [serving_listener hj] at hmove
  unfold Process.Named
  rw [serving_setListener, serving_setListener]
  exact hmove

theorem Process.Named.assign (h : s.Named) {x y : UnixListener} (hij : i ≠ j) (hx : s.listeners i = some x)
    (hy : s.listeners j = some y) :
    (((s.calls (x.assign y).2.2).setListener j (some (x.assign y).2.1)).setListener i
      (some (x.assign y).1)).Named := by
  have hclear := h.clear hx (some ⟨none, ""⟩) rfl
  have hpass := hclear.pass (i := i) (j := j) (m := y) (by rw [serving_setListener, Function.update_self]; rfl)
    (by rw [listeners_setListener, if_neg (Ne.symm hij), calls_eq]; exact hy)
  rw [setListener_comm _ hij, setListener_twice] at hpass
  exact hpass

theorem Process.Named.plain (h : s.Named) {t : Process} (cs : List Sys)
    (hcs : (cs.all fun c => !c.isFile) = true) (hl : t.listeners = s.listeners) (hn : t.names = (s.calls cs).names)
    (hh : t.halfBound = s.halfBound) : t.Named := by
  rw [calls_eq] at hn
  have hserving : t.serving = s.serving := by
    funext k
    rw [Process.serving, hl]
    rfl
  unfold Process.Named
  rw [hserving, hn, hh, foldl_names _ hcs]
  exact h

theorem Process.Named.afterListen (h : s.Named) {l : UnixListener} {path : String} {k : ListenRets}
    (hl : s.listeners i = some l) (ha : Apart s (.listen i path k)) : (s.afterListen i l path k).Named := by
  obtain ⟨hi, hfree⟩ := ha
  have hkeep : update s.serving i (l.fd.map (l.path, ·)) = s.serving := by
    rw [Function.update_eq_self_iff, serving_listener hl]
  have hnone : ∀ n ∈ Sys.names s.names (.unlink path), n.1 ≠ path := fun n hn => (Names.mem_unlink.1 hn).2
  unfold Process.afterListen Process.Named
  dsimp only
  rw [serving_setListener]
  rcases listen_eq l path k with ⟨cs, hr, hcs⟩ | ⟨fd, hr⟩ | ⟨fd, hr⟩ | ⟨fd, hr⟩
  · rw [hr]
    rcases hcs with rfl | ⟨fd, rfl⟩
    · change Names (update s.serving i (l.fd.map (l.path, ·))) s.names s.halfBound
      rw [hkeep]
      exact h
    · change Names (update s.serving i (l.fd.map (l.path, ·))) s.names s.halfBound
      rw [hkeep]
      exact h
  · rw [hr]
    change Names (update s.serving i (l.fd.map (l.path, ·))) (Sys.names s.names (.unlink path)) s.halfBound
    rw [hkeep]
    exact Names.unlink h hfree
  · rw [hr]
    change Names (update s.serving i (l.fd.map (l.path, ·)))
      (Sys.names (Sys.names s.names (.unlink path)) (.bind fd path)) ((path, fd) :: s.halfBound)
    rw [hkeep]
    exact (Names.unlink h hfree).halfBind hfree
  · rw [hr]
    exact (Names.unlink h hfree).bind hi hfree hnone

/-- **Every operation keeps the files those of the listeners.** -/
theorem step_named {o : Op} (h : s.Named) (ha : Apart s o) (hs : step s o = some s') : s'.Named := by
  cases o with
  | socket i fd        =>
    simp only [step] at hs
    split_ifs at hs
    cases hs
    exact h.plain (fd.toList.map .socket) (by cases fd <;> rfl) (by rw [calls_eq]; rfl) rfl (by rw [calls_eq]; rfl)
  | moveSocket i j     =>
    simp only [step] at hs
    split at hs
    · cases hs
      exact h.plain [] rfl rfl rfl rfl
    · cases hs
  | assignSocket i j   =>
    simp only [step] at hs
    split at hs
    · rename_i x y hx hy
      split_ifs at hs with hij
      · cases hs
        exact h
      · cases hs
        exact h.plain _ (close_plain x) (by rw [calls_eq]; rfl) rfl (by rw [calls_eq]; rfl)
    · cases hs
  | closeSocket i      =>
    obtain ⟨x, hx, rfl⟩ := Option.map_eq_some_iff.1 hs
    exact h.plain _ (close_plain x) (by rw [calls_eq]; rfl) rfl (by rw [calls_eq]; rfl)
  | endSocket i        =>
    obtain ⟨x, hx, rfl⟩ := Option.map_eq_some_iff.1 hs
    exact h.plain _ (close_plain x) (by rw [calls_eq]; rfl) rfl (by rw [calls_eq]; rfl)
  | listener i         =>
    simp only [step] at hs
    split_ifs at hs with hcond
    cases hs
    rw [Bool.not_eq_true, Option.isSome_eq_false_iff, Option.isNone_iff_eq_none] at hcond
    have hkeep : update s.serving i none = s.serving := by
      rw [Function.update_eq_self_iff, Process.serving, hcond]
      rfl
    unfold Process.Named
    rw [serving_setListener]
    change Names (update s.serving i none) s.names s.halfBound
    rw [hkeep]
    exact h
  | moveListener i j   =>
    simp only [step] at hs
    split at hs
    · rename_i y hi hj
      cases hs
      exact h.pass (by rw [Process.serving, hi]; rfl) hj
    · cases hs
  | assignListener i j =>
    simp only [step] at hs
    split at hs
    · rename_i x y hx hy
      split_ifs at hs with hij
      · cases hs
        exact h
      · cases hs
        exact h.assign hij hx hy
    · cases hs
  | closeListener i    =>
    obtain ⟨l, hl, rfl⟩ := Option.map_eq_some_iff.1 hs
    refine h.clear hl _ ?_
    unfold UnixListener.close
    cases hfd : l.fd with
    | none   =>
      dsimp only
      rw [Option.bind_some, hfd]
      rfl
    | some _ => rfl
  | endListener i      =>
    obtain ⟨l, hl, rfl⟩ := Option.map_eq_some_iff.1 hs
    exact h.clear hl none rfl
  | listen i path k    =>
    simp only [step] at hs
    split_ifs at hs with hf
    obtain ⟨l, hl, rfl⟩ := Option.map_eq_some_iff.1 hs
    exact h.afterListen hl ha
  | accept i j polls accepted =>
    simp only [step] at hs
    split at hs
    · rename_i l x hl hx
      split_ifs at hs with hf
      cases hs
      exact h.plain _ (accept_plain polls accepted x) (by rw [calls_eq]; rfl) rfl (by rw [calls_eq]; rfl)
    · cases hs
  | connect i path k   =>
    simp only [step] at hs
    split_ifs at hs with hf
    obtain ⟨x, hx, rfl⟩ := Option.map_eq_some_iff.1 hs
    exact h.plain _ (connect_plain path k x) (by rw [calls_eq]; rfl) rfl (by rw [calls_eq]; rfl)

end NameSteps

/-- **The path of a listener leads to its own socket, and nothing is left of a listener that is gone**, in every program
in which no listener listens twice and no two listen on one path.  Paths are compared as strings, so two spellings of
one file are two paths, and `unlink` is taken to succeed. -/
theorem names_owned {os : List Op} {s : Process} (ha : Along step Apart {} os) (h : run step {} os = some s) :
    Names s.serving s.names s.halfBound := by
  have hinit : ({} : Process).Named :=
    ⟨fun _ _ _ h => (by cases h), fun _ _ _ _ _ h => (by cases h), fun _ h => (by cases h)⟩
  exact run_invariant_along (fun _ _ _ hi ha hs => step_named hi ha hs) os {} s hinit ha h

/-- Two listeners, the first of which ends; then a `listen` fails that had bound its path already. -/
theorem names_owned_session :
    let os : List Op := [.listener 0, .listen 0 "/s" ⟨some 3, true, true⟩, .listener 1,
      .listen 1 "/t" ⟨some 4, true, true⟩, .endListener 0, .listener 2, .listen 2 "/u" ⟨some 3, true, false⟩]
    ∃ s, run step {} os = some s ∧ s.names = [("/u", 3), ("/t", 4)] ∧ s.serving 1 = some ("/t", 4) ∧
      Names s.serving s.names s.halfBound := by
  intro os
  have hrun : (run step {} os).map (fun s => (s.names, s.serving 1)) =
      some ([("/u", 3), ("/t", 4)], some ("/t", 4)) := by decide +kernel
  obtain ⟨s, hs, heq⟩ := Option.map_eq_some_iff.1 hrun
  simp only [Prod.mk.injEq] at heq
  have hapart : ∀ {s : Process} {n : Option (String × Nat)} {i j : Nat} {path : String} (k : ListenRets),
      (∀ j', s.serving j' = if j' = j then n else none) → i ≠ j → (∀ fd, n ≠ some (path, fd)) →
      Apart s (.listen i path k) := by
    intro s n i j path k hs hij hn
    refine ⟨?_, fun _ j' fd hj => ?_⟩
    · rw [hs, if_neg hij]
    · rw [hs] at hj
      split_ifs at hj with hjj
      exact hn fd hj
  have ha : Along step Apart {} os := by
    refine ⟨trivial, fun s₁ h₁ => ?_⟩
    cases Option.some.inj h₁
    refine ⟨hapart (j := 1) (n := none) _ (fun j' => ?_) (by decide) (by simp), fun s₂ h₂ => ?_⟩
    · rcases j' with _ | _ | j' <;> rfl
    cases Option.some.inj h₂
    refine ⟨trivial, fun s₃ h₃ => ?_⟩
    cases Option.some.inj h₃
    refine ⟨hapart (j := 0) (n := some ("/s", 3)) _ (fun j' => ?_) (by decide) (by simp), fun s₄ h₄ => ?_⟩
    · rcases j' with _ | _ | j' <;> rfl
    cases Option.some.inj h₄
    refine ⟨trivial, fun s₅ h₅ => ?_⟩
    cases Option.some.inj h₅
    refine ⟨trivial, fun s₆ h₆ => ?_⟩
    cases Option.some.inj h₆
    refine ⟨hapart (j := 1) (n := some ("/t", 4)) _ (fun j' => ?_) (by decide) (by simp), fun s₇ h₇ => trivial⟩
    rcases j' with _ | _ | _ | j' <;> rfl
  exact ⟨s, hs, heq.1, heq.2, names_owned ha hs⟩

end Sockets
end Vip
