import PcieVip.HarnessDma
/-!
# CompletionReads — the bytes that `SendCompletion` takes from its vector

`SendCompletion` reads `data[offset + i]` for `i` below `length` and below 32, and checks no bound.  `DmaRead` calls it
for each 32 bytes of the request with the payload of the host's answer, whatever its size, and for an answer that is no
success with an empty vector and four bytes.  `completion_reads_iff` says for which answers every read is inside.
-/
namespace Vip
namespace Verilator

open Ics

/-! ## Calls of SendCompletion -/

structure CplCall where
  tag       : UInt8
  byteCount : UInt16
  lowerAddr : UInt8
  data      : List UInt8
  offset    : Nat
  length    : Nat
  error     : Bool

namespace CplCall

def completion (c : CplCall) : Completion :=
  makeCompletion c.tag c.byteCount c.lowerAddr c.data c.offset c.length c.error

/-- The indices at which the loop reads the vector. -/
def reads (c : CplCall) : List Nat := (List.range (min c.length 32)).map (c.offset + ·)

def InBounds (c : CplCall) : Prop := ∀ k ∈ c.reads, k < c.data.length

end CplCall

/-- The loop of `completionWords` with its reads checked. -/
def checkedWords (data : List UInt8) (offset : Nat) : Nat → Option (Nat → BitVec 64)
  | 0     => some (fun _ => 0)
  | i + 1 =>
    match checkedWords data offset i, data[offset + i]? with
    | some words, some b =>
      let byte := b.toBitVec
      some (Function.update words (i / 8) (words (i / 8) ||| (byte.setWidth 64 <<< (8 * (i % 8)))))
    | _, _               => none

theorem checkedWords_eq_some_iff (data : List UInt8) (offset : Nat) : ∀ n : Nat,
    checkedWords data offset n = some (completionWords data offset n) ↔ ∀ i < n, offset + i < data.length
  | 0     => iff_of_true rfl nofun
  | n + 1 => by
    have ih := checkedWords_eq_some_iff data offset n
    constructor
    · intro h
      rw [checkedWords] at h
      split at h
      · rename_i words byte hwords hbyte
        have hn : offset + n < data.length := (List.getElem?_eq_some_iff.1 hbyte).1
        intro i hi
        omega
      · cases h
    · intro h
      have hn := h n (Nat.lt_succ_self n)
      rw [checkedWords, ih.2 (fun i hi => h i (Nat.lt_succ_of_lt hi)), List.getElem?_eq_getElem hn, completionWords,
        List.getD_eq_getElem _ _ hn]

theorem CplCall.inBounds_iff (c : CplCall) :
    c.InBounds ↔ ∀ i < min c.length 32, c.offset + i < c.data.length := by
  simp only [InBounds, reads, List.forall_mem_map, List.mem_range]

theorem CplCall.checked_iff (c : CplCall) :
    checkedWords c.data c.offset (min c.length 32) = some c.completion.data ↔ c.InBounds := by
  rw [inBounds_iff, ← checkedWords_eq_some_iff]
  rfl

/-! ## Calls of DmaRead -/

section Calls

variable (trace : Nat → DmaPins) (tag : UInt8) (len : Nat) (payload : List UInt8)

def chunkCalls : Nat → Nat → Nat → List CplCall
  | 0, _, _        => []
  | n + 1, sent, t =>
    if sent < len then
      ⟨tag, UInt16.ofNat (len - sent), (((trace (t - 1)).reqAddr + UInt64.ofNat sent) &&& 0x7f).toUInt8, payload, sent,
        min 32 (len - sent), false⟩ :: chunkCalls n (sent + min 32 (len - sent)) (t + 1)
    else []

def answerCalls (rsp : Option Message) (t : Nat) : List CplCall :=
  if isSuccess rsp then chunkCalls trace tag len ((rsp.map (·.payload)).getD []) len 0 t
  else [⟨tag, 0, 0, [], 0, 4, true⟩]

end Calls

section Link

variable (trace : Nat → DmaPins) (tag : UInt8)

theorem sendChunks_calls (len : Nat) (payload : List UInt8) : ∀ (n sent : Nat) (s : Served),
    (sendChunks trace tag len payload n sent s).completions =
      s.completions ++ (chunkCalls trace tag len payload n sent s.ticks).map CplCall.completion
  | 0, _, s        => by rw [sendChunks, chunkCalls, List.map_nil, List.append_nil]
  | n + 1, sent, s => by
    rw [sendChunks, chunkCalls]
    split
    · rw [sendChunks_calls len payload n, List.map_cons]
      dsimp only [Served.tick]
      rw [List.append_assoc]
      rfl
    · rw [List.map_nil, List.append_nil]

/-- **The completions of a request are those of its calls.** -/
theorem answerRead_calls (host : Host) (simTime : UInt64) (p : DmaPins) (s : Served) :
    (answerRead host trace simTime tag p s).completions =
      s.completions ++ (answerCalls trace tag p.reqLen.toNat (host s.exchanges (p.readRequest simTime)) s.ticks).map
        CplCall.completion := by
  unfold answerRead answerCalls
  dsimp only
  split
  · exact sendChunks_calls trace tag _ _ _ _ _
  · rfl

end Link

/-! ## What is read -/

section Reads

variable (trace : Nat → DmaPins) (tag : UInt8) {len : Nat} {payload : List UInt8}

theorem chunkCalls_inBounds_iff : ∀ (n sent t : Nat), sent ≤ len → len - sent ≤ n → sent ≤ payload.length →
    ((∀ c ∈ chunkCalls trace tag len payload n sent t, c.InBounds) ↔ len ≤ payload.length)
  | 0, sent, t, hs, hn, hp      => by
    refine iff_of_true (fun c hc => (by cases hc)) ?_
    omega
  | n + 1, sent, t, hs, hn, hp => by
    rw [chunkCalls]
    split
    · rename_i hlt
      rw [List.forall_mem_cons, CplCall.inBounds_iff]
      dsimp only
      by_cases hchunk : sent + min 32 (len - sent) ≤ payload.length
      · have hfirst : ∀ i < min (min 32 (len - sent)) 32, sent + i < payload.length := by
          intro i hi
          omega
        rw [and_iff_right hfirst]
        exact chunkCalls_inBounds_iff n _ _ (by omega) (by omega) hchunk
      · refine iff_of_false (fun h => hchunk ?_) (by omega)
        have hlast := h.1 (min 32 (len - sent) - 1) (by omega)
        omega
    · refine iff_of_true (fun c hc => (by cases hc)) ?_
      omega

end Reads

theorem error_outside (tag : UInt8) : ¬ CplCall.InBounds ⟨tag, 0, 0, [], 0, 4, true⟩ := by
  intro h
  have hfirst : (0 : Nat) < 0 := h 0 (show 0 ∈ (List.range 4).map (0 + ·) by decide)
  exact Nat.lt_irrefl 0 hfirst

/-- **Every read is inside exactly for a success with at least as many bytes as the request asks for.** -/
theorem completion_reads_iff (trace : Nat → DmaPins) (tag : UInt8) (len : UInt16) (rsp : Option Message) (t : Nat) :
    (∀ c ∈ answerCalls trace tag len.toNat rsp t, c.InBounds) ↔
      isSuccess rsp = true ∧ ∀ m, rsp = some m → len.toNat ≤ m.payload.length := by
  unfold answerCalls
  cases rsp with
  | none   =>
    refine iff_of_false (fun h => ?_) (fun h => by cases h.1)
    exact error_outside tag (h _ List.mem_cons_self)
  | some m =>
    split
    · rename_i hok
      rw [and_iff_right hok]
      refine (chunkCalls_inBounds_iff trace tag _ _ t (Nat.zero_le _) (Nat.le_refl _) (Nat.zero_le _)).trans ?_
      constructor
      · rintro h m' ⟨⟩
        exact h
      · intro h
        exact h m rfl
    · rename_i hbad
      refine iff_of_false (fun h => ?_) (fun h => hbad h.1)
      exact error_outside tag (h _ List.mem_cons_self)

/-- No answer: four bytes of an empty vector.  A success with one byte less than was asked for: the byte after the
last. -/
theorem completion_reads_outside :
    (∃ c ∈ answerCalls (fun _ => {}) 1 4 none 1, 0 ∈ c.reads ∧ c.data.length = 0) ∧
      (∃ c ∈ answerCalls (fun _ => {}) 1 4 (some ⟨makeHeader .dmaReadRsp 1 0 0 .success 0 3, [1, 2, 3]⟩) 1,
        3 ∈ c.reads ∧ c.data.length = 3) ∧
      ¬ ∀ c ∈ answerCalls (fun _ => {}) 1 4 none 1, c.InBounds :=
  ⟨⟨_, List.mem_cons_self, by decide, rfl⟩, ⟨_, List.mem_cons_self, by decide, rfl⟩,
    fun h => error_outside 1 (h _ List.mem_cons_self)⟩

end Verilator
end Vip
