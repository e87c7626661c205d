import PcieVip.Protocol
/-!
# Socket — whole-buffer reads and writes over a stream socket (`mini-ics/src/socket.cpp`)

`recvAll` and `sendAll` loop over `poll` and one system call until the whole buffer has moved.  What the kernel answers
is data: a turn holds the results of the polls of one loop iteration and of the `recv` or `send` after them.  A list of
turns that has run out is a quiet line, on which the next poll times out.

`recvAll_stream` is the loop's invariant: the bytes received so far and the bytes not yet delivered are the stream;
`recvAll_length` says that it answers `ok` exactly when it filled the buffer.  `sendAll_wrote` is the same for writes.
-/
namespace Vip
namespace Ics

inductive IoStatus where
  | ok | timeout | disconnected | error
  deriving DecidableEq, Repr

/-- The result of one `poll`: `ready` stands for an event that was asked for. -/
inductive PollRet where
  | revents (err nval hup ready : Bool)
  | timedOut
  | eintr
  | failed
  deriving DecidableEq, Repr

/-- `PollFor`, over what the successive polls return. -/
def pollFor : List PollRet → IoStatus
  | []                                => .timeout
  | .eintr :: ps                      => pollFor ps
  | .timedOut :: _                    => .timeout
  | .failed :: _                      => .error
  | .revents err nval hup ready :: _  =>
    if err || nval then .error
    else if hup && !ready then .disconnected
    else .ok

/-! ## Receiving -/

/-- The result of one `recv`: the chunk the kernel holds (none at the end of the stream), or an errno. -/
inductive RecvRet where
  | data (chunk : List UInt8)
  | eintr
  | eagain
  | failed
  deriving DecidableEq, Repr

structure RxTurn where
  polls : List PollRet
  recv  : RecvRet
  deriving DecidableEq, Repr

/-- The bytes a turn delivers: none unless its poll is answered and its `recv` returns data. -/
def RxTurn.bytes (t : RxTurn) : List UInt8 :=
  match pollFor t.polls, t.recv with
  | .ok, .data chunk => chunk
  | _, _             => []

/-- The byte stream of a connection, however it is cut into turns. -/
def streamOf (rx : List RxTurn) : List UInt8 := rx.flatMap RxTurn.bytes

structure RecvResult where
  status : IoStatus
  got    : List UInt8
  rest   : List RxTurn
  deriving DecidableEq, Repr

/-- `RecvAll` into a buffer of the given size.  `got` is the part of the buffer that was filled. -/
def recvAll : Nat → List RxTurn → RecvResult
  | 0, rx          => ⟨.ok, [], rx⟩
  | _ + 1, []      => ⟨.timeout, [], []⟩
  | n + 1, t :: rx =>
    match pollFor t.polls with
    | .ok =>
      match t.recv with
      | .eintr      => recvAll (n + 1) rx
      | .eagain     => recvAll (n + 1) rx
      | .failed     => ⟨.error, [], rx⟩
      -- the peer's orderly shutdown: never "no more bytes needed"
      | .data []    => ⟨.disconnected, [], rx⟩
      | .data (b :: bs) =>
        if bs.length ≤ n then
          let r := recvAll (n - bs.length) rx
          ⟨r.status, b :: bs ++ r.got, r.rest⟩
        else ⟨.ok, (b :: bs).take (n + 1), { t with recv := .data ((b :: bs).drop (n + 1)) } :: rx⟩
    | st => ⟨st, [], rx⟩

/-- A turn on a healthy connection: a non-empty chunk, or a system call to be retried. -/
structure RxTurn.Clean (t : RxTurn) : Prop where
  polled : pollFor t.polls = .ok
  recv   : t.recv = .eintr ∨ t.recv = .eagain ∨ ∃ b bs, t.recv = .data (b :: bs)

theorem streamOf_cons (t : RxTurn) (rx : List RxTurn) : streamOf (t :: rx) = t.bytes ++ streamOf rx := rfl

theorem RxTurn.bytes_of_not_ok {t : RxTurn} (h : pollFor t.polls ≠ .ok) : t.bytes = [] := by
  unfold RxTurn.bytes
  split
  · rename_i hp _; exact absurd hp h
  · rfl

theorem RxTurn.bytes_of_ok {t : RxTurn} (h : pollFor t.polls = .ok) :
    t.bytes = match t.recv with | .data chunk => chunk | _ => [] := by
  unfold RxTurn.bytes
  rw [h]
  cases t.recv <;> rfl

theorem recvAll_of_not_ok {t : RxTurn} (h : pollFor t.polls ≠ .ok) (n : Nat) (rx : List RxTurn) :
    recvAll (n + 1) (t :: rx) = ⟨pollFor t.polls, [], rx⟩ := by
  cases hp : pollFor t.polls with
  | ok => exact absurd hp h
  | timeout => simp only [recvAll, hp]
  | disconnected => simp only [recvAll, hp]
  | error => simp only [recvAll, hp]

/-- **Nothing is lost or reordered**: what was received, followed by what is still to come, is the stream. -/
theorem recvAll_stream :
    ∀ (rx : List RxTurn) (n : Nat), (recvAll n rx).got ++ streamOf (recvAll n rx).rest = streamOf rx
  | _, 0           => by simp [recvAll]
  | [], _ + 1      => by simp [recvAll]
  | t :: rx, n + 1 => by
    rw [streamOf_cons]
    by_cases hp : pollFor t.polls = .ok
    · rw [RxTurn.bytes_of_ok hp]
      simp only [recvAll, hp]
      split
      · rename_i hr; simp only [hr, List.nil_append]; exact recvAll_stream rx (n + 1)
      · rename_i hr; simp only [hr, List.nil_append]; exact recvAll_stream rx (n + 1)
      · rename_i hr; simp [hr]
      · rename_i hr; simp [hr]
      · rename_i b bs hr
        split
        · have ih := recvAll_stream rx (n - bs.length)
          simp [hr, ← ih]
        · have hb : RxTurn.bytes { t with recv := .data ((b :: bs).drop (n + 1)) } = (b :: bs).drop (n + 1) :=
            RxTurn.bytes_of_ok (t := { t with recv := .data ((b :: bs).drop (n + 1)) }) hp
          rw [streamOf_cons, hb, hr, ← List.append_assoc, List.take_append_drop]
    · rw [recvAll_of_not_ok hp, RxTurn.bytes_of_not_ok hp]

/-- **`ok` is answered exactly when the buffer was filled**, and never more than the buffer is received. -/
theorem recvAll_length : ∀ (rx : List RxTurn) (n : Nat),
    (recvAll n rx).got.length ≤ n ∧ ((recvAll n rx).status = .ok ↔ (recvAll n rx).got.length = n)
  | _, 0           => by simp [recvAll]
  | [], _ + 1      => by simp [recvAll]
  | t :: rx, n + 1 => by
    by_cases hp : pollFor t.polls = .ok
    · simp only [recvAll, hp]
      split
      · exact recvAll_length rx (n + 1)
      · exact recvAll_length rx (n + 1)
      · simp
      · simp
      · rename_i b bs hr
        split
        · rename_i hle
          obtain ⟨h1, h2⟩ := recvAll_length rx (n - bs.length)
          simp only [List.length_append, List.length_cons]
          refine ⟨by omega, h2.trans ?_⟩
          omega
        · rename_i hgt
          simp only [List.length_take, List.length_cons, true_iff]
          omega
    · rw [recvAll_of_not_ok hp]
      simp [hp]

theorem recvAll_ok_length {n : Nat} {rx : List RxTurn} (h : (recvAll n rx).status = .ok) :
    (recvAll n rx).got.length = n := (recvAll_length rx n).2.1 h

/-- **On a healthy connection with enough bytes to come the buffer is filled**, and the connection stays healthy. -/
theorem recvAll_clean : ∀ (rx : List RxTurn) (n : Nat), (∀ t ∈ rx, t.Clean) → n ≤ (streamOf rx).length →
    (recvAll n rx).status = .ok ∧ ∀ t ∈ (recvAll n rx).rest, t.Clean
  | rx, 0, hc, _           => by cases rx <;> exact ⟨rfl, hc⟩
  | [], n + 1, _, hn       => by simp [streamOf] at hn
  | t :: rx, n + 1, hc, hn => by
    have ht := hc t List.mem_cons_self
    have hrx : ∀ u ∈ rx, u.Clean := fun u hu => hc u (List.mem_cons_of_mem _ hu)
    rw [streamOf_cons, RxTurn.bytes_of_ok ht.polled] at hn
    simp only [recvAll, ht.polled]
    rcases ht.recv with hr | hr | ⟨b, bs, hr⟩
    · simp only [hr, List.nil_append] at hn ⊢
      exact recvAll_clean rx (n + 1) hrx hn
    · simp only [hr, List.nil_append] at hn ⊢
      exact recvAll_clean rx (n + 1) hrx hn
    · simp only [hr, List.length_append, List.length_cons] at hn ⊢
      split
      · exact recvAll_clean rx (n - bs.length) hrx (by omega)
      · rename_i hgt
        refine ⟨rfl, fun u hu => ?_⟩
        rcases List.mem_cons.1 hu with rfl | hu
        · refine ⟨ht.polled, .inr (.inr ?_)⟩
          cases hd : (b :: bs).drop (n + 1) with
          | nil =>
            have := congrArg List.length hd
            simp at this; omega
          | cons b' bs' => exact ⟨b', bs', rfl⟩
        · exact hrx u hu

theorem recvAll_clean_eq {n : Nat} {rx : List RxTurn} (hc : ∀ t ∈ rx, t.Clean) {bs rest : List UInt8}
    (hs : streamOf rx = bs ++ rest) (hn : bs.length = n) :
    (recvAll n rx).status = .ok ∧ (recvAll n rx).got = bs ∧ streamOf (recvAll n rx).rest = rest ∧
      ∀ t ∈ (recvAll n rx).rest, t.Clean := by
  obtain ⟨hst, hcl⟩ := recvAll_clean rx n hc (by rw [hs, List.length_append]; omega)
  have hsplit := (recvAll_stream rx n).trans hs
  obtain ⟨hgot, hrest⟩ := List.append_inj hsplit ((recvAll_ok_length hst).trans hn.symm)
  exact ⟨hst, hgot, hrest, hcl⟩

theorem pollFor_eintr (k : Nat) (err nval hup ready : Bool) :
    pollFor (List.replicate k .eintr ++ [.revents err nval hup ready]) = pollFor [.revents err nval hup ready] := by
  induction k with
  | zero      => rfl
  | succ k ih => exact ih

theorem recvAll_append (ys : List RxTurn) : ∀ (rx : List RxTurn) (n : Nat), (recvAll n rx).status = .ok →
    recvAll n (rx ++ ys) = ⟨.ok, (recvAll n rx).got, (recvAll n rx).rest ++ ys⟩
  | rx, 0, _           => by cases rx <;> simp [recvAll]
  | [], _ + 1, h       => by cases h
  | t :: rx, n + 1, h  => by
    by_cases hp : pollFor t.polls = .ok
    · simp only [recvAll, hp] at h
      simp only [List.cons_append, recvAll, hp]
      cases hr : t.recv with
      | eintr  =>
        simp only [hr] at h
        exact recvAll_append ys rx (n + 1) h
      | eagain =>
        simp only [hr] at h
        exact recvAll_append ys rx (n + 1) h
      | failed =>
        simp only [hr] at h
        cases h
      | data chunk =>
        cases chunk with
        | nil       =>
          simp only [hr] at h
          cases h
        | cons b bs =>
          simp only [hr] at h
          dsimp only
          by_cases hle : bs.length ≤ n
          · rw [if_pos hle] at h
            simp only [if_pos hle, recvAll_append ys rx (n - bs.length) h]
          · simp only [if_neg hle, List.cons_append]
    · rw [recvAll_of_not_ok hp] at h
      exact absurd h hp

/-! ## Sending -/

/-- The result of one `send`: how many bytes the kernel took, or an errno. -/
inductive SendRet where
  | wrote (n : Nat)
  | eintr
  | eagain
  | epipe
  | econnreset
  | failed
  deriving DecidableEq, Repr

structure TxTurn where
  polls : List PollRet
  send  : SendRet
  deriving DecidableEq, Repr

/-- How one iteration of `SendAll` ends: some bytes written (none on a retry), or the status to return. -/
inductive SendStep where
  | wrote (bs : List UInt8)
  | stop (st : IoStatus)
  deriving DecidableEq, Repr

def sendStep (left : List UInt8) (t : TxTurn) : SendStep :=
  match pollFor t.polls with
  | .ok =>
    match t.send with
    | .eintr      => .wrote []
    | .eagain     => .wrote []
    | .epipe      => .stop .disconnected
    | .econnreset => .stop .disconnected
    | .failed     => .stop .error
    | .wrote 0       => .stop .disconnected
    | .wrote (n + 1) => .wrote (left.take (n + 1))
  | st => .stop st

structure SendResult where
  status : IoStatus
  wrote  : List UInt8
  deriving DecidableEq, Repr

/-- `SendAll`.  `wrote` is what reached the kernel, also when the call fails. -/
def sendAll : List UInt8 → List TxTurn → SendResult
  | [], _            => ⟨.ok, []⟩
  | _ :: _, []       => ⟨.timeout, []⟩
  | b :: bs, t :: tx =>
    match sendStep (b :: bs) t with
    | .stop st => ⟨st, []⟩
    | .wrote w =>
      let r := sendAll ((b :: bs).drop w.length) tx
      ⟨r.status, w ++ r.wrote⟩

theorem sendStep_wrote {left : List UInt8} {t : TxTurn} {w : List UInt8} (h : sendStep left t = .wrote w) :
    w <+: left := by
  unfold sendStep at h
  split at h
  · split at h <;> cases h
    · exact List.nil_prefix
    · exact List.nil_prefix
    · exact List.take_prefix _ _
  · cases h

theorem sendStep_stop {left : List UInt8} {t : TxTurn} {st : IoStatus} (h : sendStep left t = .stop st) : st ≠ .ok := by
  unfold sendStep at h
  split at h
  · split at h <;> cases h <;> decide
  · rename_i hp; cases h; exact hp

/-- **A send writes a front part of its buffer, and the whole of it exactly when it answers `ok`.** -/
theorem sendAll_wrote : ∀ (tx : List TxTurn) (data : List UInt8),
    (sendAll data tx).wrote <+: data ∧ ((sendAll data tx).status = .ok ↔ (sendAll data tx).wrote = data)
  | _, []            => by simp [sendAll]
  | [], b :: bs      => by simp [sendAll]
  | t :: tx, b :: bs => by
    simp only [sendAll]
    cases hs : sendStep (b :: bs) t with
    | stop st => simp [sendStep_stop hs]
    | wrote w =>
      obtain ⟨rest, hrest⟩ := sendStep_wrote hs
      obtain ⟨h1, h2⟩ := sendAll_wrote tx ((b :: bs).drop w.length)
      simp only [← hrest, List.drop_left] at h1 h2 ⊢
      exact ⟨(List.prefix_append_right_inj w).2 h1, h2.trans (by simp)⟩

/-! ## What the kernel takes -/

/-- The kernel takes `n` bytes before anything fails. -/
def takesAll : Nat → List TxTurn → Bool
  | 0, _           => true
  | _ + 1, []      => false
  | n + 1, t :: tx =>
    match pollFor t.polls, t.send with
    | .ok, .eintr        => takesAll (n + 1) tx
    | .ok, .eagain       => takesAll (n + 1) tx
    | .ok, .wrote (k + 1) => takesAll (n - k) tx
    | _, _               => false

def refuses : List TxTurn → Bool
  | []      => true
  | t :: tx =>
    match pollFor t.polls, t.send with
    | .ok, .eintr        => refuses tx
    | .ok, .eagain       => refuses tx
    | .ok, .wrote (_ + 1) => false
    | _, _               => true

theorem sendAll_of_takesAll : ∀ (tx : List TxTurn) (data : List UInt8), takesAll data.length tx = true →
    (sendAll data tx).wrote = data
  | _, [], _           => by simp [sendAll]
  | [], _ :: _, h      => by simp [takesAll] at h
  | t :: tx, b :: bs, h => by
    simp only [List.length_cons, takesAll] at h
    simp only [sendAll, sendStep]
    split at h
    · rename_i hp hs; simp only [hp, hs, List.length_nil, List.drop_zero, List.nil_append]
      exact sendAll_of_takesAll tx (b :: bs) h
    · rename_i hp hs; simp only [hp, hs, List.length_nil, List.drop_zero, List.nil_append]
      exact sendAll_of_takesAll tx (b :: bs) h
    · rename_i k hp hs
      have hdrop : (b :: bs).drop ((b :: bs).take (k + 1)).length = bs.drop k := by simp
      have ih := sendAll_of_takesAll tx (bs.drop k) (by rw [List.length_drop]; exact h)
      simp only [hp, hs]
      rw [hdrop, ih, List.take_succ_cons, List.cons_append, List.take_append_drop]
    · cases h

theorem takesAll_of_ok : ∀ (tx : List TxTurn) (data : List UInt8), (sendAll data tx).status = .ok →
    takesAll data.length tx = true
  | _, [], _            => by simp [takesAll]
  | [], _ :: _, h       => by cases h
  | t :: tx, b :: bs, h => by
    simp only [sendAll] at h
    cases hs : sendStep (b :: bs) t with
    | stop st =>
      rw [hs] at h
      exact absurd h (sendStep_stop hs)
    | wrote w =>
      rw [hs] at h
      have ih := takesAll_of_ok tx _ h
      unfold sendStep at hs
      split at hs
      · rename_i hp
        split at hs <;> cases hs
        · rename_i hr
          simpa [takesAll, hp, hr] using ih
        · rename_i hr
          simpa [takesAll, hp, hr] using ih
        · rename_i k hr
          have hlen : ((b :: bs).drop ((b :: bs).take (k + 1)).length).length = bs.length - k := by
            simp only [List.length_drop, List.length_take, List.length_cons]
            omega
          rw [hlen] at ih
          simpa [takesAll, hp, hr] using ih
      · cases hs

/-- **A send answers `ok` exactly if the kernel takes the whole buffer.** -/
theorem sendAll_ok_iff (tx : List TxTurn) (data : List UInt8) :
    (sendAll data tx).status = .ok ↔ takesAll data.length tx = true :=
  ⟨takesAll_of_ok tx data, fun h => (sendAll_wrote tx data).2.2 (sendAll_of_takesAll tx data h)⟩

theorem sendAll_of_refuses : ∀ (tx : List TxTurn) (data : List UInt8), refuses tx = true →
    (sendAll data tx).wrote = []
  | _, [], _            => by simp [sendAll]
  | [], _ :: _, _       => by simp [sendAll]
  | t :: tx, b :: bs, h => by
    simp only [refuses] at h
    cases hs : sendStep (b :: bs) t with
    | stop st => simp only [sendAll, hs]
    | wrote w =>
      unfold sendStep at hs
      split at hs
      · rename_i hp
        split at hs <;> cases hs
        · rename_i hr
          simp only [hp, hr] at h
          simp only [sendAll, sendStep, hp, hr, List.length_nil, List.drop_zero, List.nil_append]
          exact sendAll_of_refuses tx (b :: bs) h
        · rename_i hr
          simp only [hp, hr] at h
          simp only [sendAll, sendStep, hp, hr, List.length_nil, List.drop_zero, List.nil_append]
          exact sendAll_of_refuses tx (b :: bs) h
        · rename_i hr
          simp only [hp, hr] at h
          cases h
      · cases hs

end Ics
end Vip
