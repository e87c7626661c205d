import Mathlib.Data.Fin.Tuple.Basic
import Mathlib.Data.List.Induction
import PcieVip.LibServe
/-!
# StagingRam — the segmented RAM of the DMA engine (`pcie_vip_dma_if_pcie.sv`)

Two segments of 32 byte lanes share one byte array.  The index is made from the segment address and the lane and leaves
the segment out, so that both segments are the same bytes.  `lastWritten` is what a flat memory would return; the RAM
returns it for every read exactly if the two segments were last written with the same bytes (`reads_lastWritten_iff`).
-/
namespace Vip
namespace Alex
namespace Staging

open Serve

/-! ## The process -/

abbrev Lanes := Fin 32 → BitVec 8

/-- The commands of one segment in a cycle; both channels are always ready. -/
structure Cmd where
  rdValid : Bool := false
  rdAddr  : BitVec 10 := 0
  wrValid : Bool := false
  wrAddr  : BitVec 10 := 0
  wrData  : Lanes := fun _ => 0
  wrBe    : BitVec 32 := 0

abbrev Cycle := Fin 2 → Cmd

structure Ram where
  ram         : Nat → BitVec 8
  rdRespData  : Fin 2 → Lanes := fun _ _ => 0
  rdRespValid : Fin 2 → Bool := fun _ => false
  wrDone      : Fin 2 → Bool := fun _ => false

/-- The index expression, which is 32 bits wide. -/
def index (addr : BitVec 10) (b : Nat) : Nat := (addr.toNat <<< 5) + b

def writeLanes (c : Cmd) : List (Fin 32) → (Nat → BitVec 8) → Nat → BitVec 8
  | [], ram      => ram
  | b :: bs, ram =>
    writeLanes c bs (if c.wrBe.getLsbD b then Function.update ram (index c.wrAddr b) (c.wrData b) else ram)

def writeSegment (c : Cmd) (ram : Nat → BitVec 8) : Nat → BitVec 8 :=
  if c.wrValid then writeLanes c (List.finRange 32) ram else ram

/-- A clock edge: reads see the array before the writes, and of two writes to one byte the second segment's is kept. -/
def Ram.clock (r : Ram) (i : Cycle) : Ram × (Fin 2 → Option Lanes) :=
  let next : Ram :=
    { ram := writeSegment (i 1) (writeSegment (i 0) r.ram)
      rdRespData := fun s => if (i s).rdValid then fun b => r.ram (index (i s).rdAddr b) else r.rdRespData s
      rdRespValid := fun s => (i s).rdValid
      wrDone := fun s => (i s).wrValid }
  (next, fun s => if next.rdRespValid s then some (next.rdRespData s) else none)

/-! ## A flat memory -/

def wrote (i : Cycle) (s : Fin 2) (addr : BitVec 10) (b : Fin 32) : Option (BitVec 8) :=
  if (i s).wrValid ∧ (i s).wrAddr = addr ∧ (i s).wrBe.getLsbD b then some ((i s).wrData b) else none

/-- The byte most recently written to a lane of a segment, or else what the array was switched on with. -/
def lastWritten (ram : Nat → BitVec 8) (is : List Cycle) (s : Fin 2) (addr : BitVec 10) (b : Fin 32) : BitVec 8 :=
  is.foldl (fun v i => (wrote i s addr b).getD v) (ram (index addr b))

def lastWrittenAny (ram : Nat → BitVec 8) (is : List Cycle) (addr : BitVec 10) (b : Fin 32) : BitVec 8 :=
  is.foldl (fun v i => (wrote i 1 addr b).getD ((wrote i 0 addr b).getD v)) (ram (index addr b))

/-! ## One cycle -/

theorem index_inj {a a' : BitVec 10} {b b' : Fin 32} (h : index a b = index a' b') : a = a' ∧ b = b' := by
  simp only [index, Nat.shiftLeft_eq] at h
  have hb := b.isLt
  have hb' := b'.isLt
  exact ⟨BitVec.eq_of_toNat_eq (by omega), Fin.ext (by omega)⟩

theorem writeLanes_index (c : Cmd) (addr : BitVec 10) (b : Fin 32) :
    ∀ (bs : List (Fin 32)) (ram : Nat → BitVec 8), writeLanes c bs ram (index addr b) =
      if b ∈ bs ∧ c.wrAddr = addr ∧ c.wrBe.getLsbD b then c.wrData b else ram (index addr b)
  | [], ram      => by rw [if_neg (fun h => by cases h.1)]; rfl
  | k :: bs, ram => by
    have ih := writeLanes_index c addr b bs
      (if c.wrBe.getLsbD k then Function.update ram (index c.wrAddr k) (c.wrData k) else ram)
    rw [writeLanes, ih]
    by_cases hin : b ∈ bs ∧ c.wrAddr = addr ∧ c.wrBe.getLsbD b = true
    · rw [if_pos hin, if_pos ⟨List.mem_cons_of_mem _ hin.1, hin.2⟩]
    rw [if_neg hin]
    by_cases hk : b = k ∧ c.wrAddr = addr ∧ c.wrBe.getLsbD b = true
    · obtain ⟨rfl, rfl, hbe⟩ := hk
      rw [if_pos hbe, if_pos ⟨List.mem_cons_self, rfl, hbe⟩, Function.update_self]
    · -- this lane of the write goes elsewhere
      have hnone : ¬ (b ∈ k :: bs ∧ c.wrAddr = addr ∧ c.wrBe.getLsbD b = true) := by
        rintro ⟨hmem, h⟩
        rcases List.mem_cons.1 hmem with he | hm
        · exact hk ⟨he, h⟩
        · exact hin ⟨hm, h⟩
      rw [if_neg hnone]
      by_cases hbe : c.wrBe.getLsbD k = true
      · rw [if_pos hbe]
        refine Function.update_of_ne (fun he => ?_) _ _
        obtain ⟨haddr, hlane⟩ := index_inj he
        exact hk ⟨hlane, haddr.symm, by rw [hlane]; exact hbe⟩
      · rw [if_neg hbe]

theorem writeSegment_index (i : Cycle) (s : Fin 2) (ram : Nat → BitVec 8) (addr : BitVec 10) (b : Fin 32) :
    writeSegment (i s) ram (index addr b) = (wrote i s addr b).getD (ram (index addr b)) := by
  unfold writeSegment wrote
  cases (i s).wrValid with
  | false => rfl
  | true  =>
    rw [if_pos rfl, writeLanes_index]
    simp only [List.mem_finRange, true_and]
    split
    · rfl
    · rfl

/-! ## Runs -/

theorem after_index (r : Ram) (is : List Cycle) (addr : BitVec 10) (b : Fin 32) :
    (after Ram.clock r is).ram (index addr b) = lastWrittenAny r.ram is addr b := by
  induction is using List.reverseRecOn with
  | nil => rfl
  | append_singleton is i ih =>
    rw [after_concat, lastWrittenAny, List.foldl_append]
    change writeSegment (i 1) (writeSegment (i 0) (after Ram.clock r is).ram) (index addr b) = _
    rw [writeSegment_index, writeSegment_index, ih]
    rfl

theorem lastWrittenAny_eq (ram : Nat → BitVec 8) (is : List Cycle) (addr : BitVec 10) (b : Fin 32) :
    lastWrittenAny ram is addr b = lastWritten ram is 0 addr b ∨
      lastWrittenAny ram is addr b = lastWritten ram is 1 addr b := by
  induction is using List.reverseRecOn with
  | nil => exact .inl rfl
  | append_singleton is i ih =>
    simp only [lastWrittenAny, lastWritten, List.foldl_append, List.foldl_cons, List.foldl_nil] at ih ⊢
    cases h1 : wrote i 1 addr b with
    | some v => exact .inr rfl
    | none   =>
      cases h0 : wrote i 0 addr b with
      | some v => exact .inl rfl
      | none   => exact ih

/-- **When the RAM is a flat memory.**  Every read that may follow a sequence of commands returns the bytes last written
to its own segment and address exactly if both segments were last written with the same byte in every lane of every
address. -/
theorem reads_lastWritten_iff (r : Ram) (is : List Cycle) :
    (∀ (i : Cycle) (s : Fin 2), (i s).rdValid = true →
        (Ram.clock (after Ram.clock r is) i).2 s = some (lastWritten r.ram is s (i s).rdAddr)) ↔
      ∀ addr b, lastWritten r.ram is 0 addr b = lastWritten r.ram is 1 addr b := by
  have hread : ∀ (i : Cycle) (s : Fin 2), (i s).rdValid = true → (Ram.clock (after Ram.clock r is) i).2 s =
      some (fun b => lastWrittenAny r.ram is (i s).rdAddr b) := by
    intro i s hv
    simp only [Ram.clock, hv, after_index]
    rfl
  constructor
  · intro h addr b
    have hany : ∀ s, lastWrittenAny r.ram is addr b = lastWritten r.ram is s addr b := by
      intro s
      let ask : Cycle := fun _ => { rdValid := true, rdAddr := addr }
      have hs := (hread ask s rfl).symm.trans (h ask s rfl)
      exact congrFun (Option.some.inj hs) b
    rw [← hany 0, hany 1]
  · intro h i s hv
    rw [hread i s hv]
    refine congrArg some (funext fun b => ?_)
    have hsame : ∀ t : Fin 2, lastWritten r.ram is t (i s).rdAddr b = lastWritten r.ram is 0 (i s).rdAddr b :=
      Fin.forall_fin_two.2 ⟨rfl, (h _ b).symm⟩
    rw [hsame s]
    rcases lastWrittenAny_eq r.ram is (i s).rdAddr b with h0 | h1
    · exact h0
    · exact h1.trans (hsame 1)

def fill (s : Fin 2) (v : BitVec 8) : Cycle :=
  fun t => if t = s then { wrValid := true, wrData := fun _ => v, wrBe := BitVec.allOnes 32 } else {}

/-- Segment 0 is filled with ones and segment 1 with twos, both at address 0; a read of segment 0 returns twos. -/
theorem segments_alias :
    let r := after Ram.clock { ram := fun _ => 0 } [fill 0 1, fill 1 2]
    let ask : Cycle := fun s => { rdValid := s = 0 }
    ((Ram.clock r ask).2 0).map (fun d => d 0) = some 2 ∧
      lastWritten (fun _ => 0) [fill 0 1, fill 1 2] 0 0 0 = 1 ∧
      (Ram.clock r ask).2 0 ≠ some (lastWritten (fun _ => 0) [fill 0 1, fill 1 2] 0 0) := by
  intro r ask
  have hread : ((Ram.clock r ask).2 0).map (fun d => d 0) = some 2 := by decide +kernel
  have hflat : lastWritten (fun _ => 0) [fill 0 1, fill 1 2] 0 0 0 = 1 := by decide
  refine ⟨hread, hflat, fun h => ?_⟩
  rw [h, Option.map_some, hflat] at hread
  exact absurd hread (by decide)

end Staging
end Alex
end Vip
