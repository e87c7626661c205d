import PcieVip.LibMem
import PcieVip.Server
/-!
# HostClient — the demo host (`mini-ics/src/host_client.cpp`)

`HostMemory`, and the body of the loop of `ServiceRtlInitiatedTransactions`: a message of the endpoint, the answer to it
and whether the function goes on.  The time that `MakeHeader` takes from the client's clock is a parameter, and the log
lines are left out.
-/
namespace Vip
namespace HostClient

open Ics

/-! ## HostMemory -/

structure HostMemory where
  size : UInt64
  data : BitVec 64 → UInt8

def inBoundsLocked (size addr len : UInt64) : Bool :=
  if len = 0 then true
  else if addr ≥ size then false
  else
    -- the sum wraps
    let last := addr + len
    if last < addr then false else last ≤ size

namespace HostMemory

/-- `Write`: nothing when the range is out of bounds. -/
def write (m : HostMemory) (addr : UInt64) (src : List UInt8) : Option HostMemory :=
  if inBoundsLocked m.size addr (UInt64.ofNat src.length) then
    some { m with data := Mem.write m.data addr.toBitVec src }
  else none

def read (m : HostMemory) (addr : UInt64) (len : UInt32) : Option (List UInt8) :=
  if inBoundsLocked m.size addr len.toUInt64 then some (Mem.read m.data addr.toBitVec len.toNat) else none

end HostMemory

/-! ## ServiceRtlInitiatedTransactions -/

def kMemorySize : UInt64 := 64 * 1024 * 1024

/-- The memory and the variables of the function. -/
structure Vars where
  memory          : HostMemory
  sawDmaRead      : Bool := false
  sawDmaWrite     : Bool := false
  sawMsix         : Bool := false
  completionBytes : List UInt8 := []

def sendDmaReadResponse (txnId addr : UInt64) (data : List UInt8) (status : StatusCode) (now : UInt64) : Message :=
  ⟨makeHeader .dmaReadRsp txnId addr 0 status now (UInt32.ofNat data.length) kFlagIsResponse, data⟩

def sendDmaWriteResponse (txnId addr : UInt64) (status : StatusCode) (now : UInt64) : Message :=
  ⟨makeHeader .dmaWriteRsp txnId addr 0 status now 0 kFlagIsResponse, []⟩

/-- What a message leaves behind; `goOn` is false where the function returns false.  `reply` is what is handed to
`SendAll`, whose result nobody looks at. -/
structure Body where
  vars  : Vars
  reply : Option Message
  goOn  : Bool

namespace Vars

def dmaRead (v : Vars) (msg : Message) (now : UInt64) : Body :=
  let v := { v with sawDmaRead := true }
  let txnId := msg.header.txnId
  let addr := msg.header.address
  let len := msg.header.transferLen
  if len = 0 then ⟨v, some (sendDmaReadResponse txnId addr [] .errorBadLength now), false⟩
  else
    match v.memory.read addr len with
    | none      => ⟨v, some (sendDmaReadResponse txnId addr [] .errorOutOfBounds now), false⟩
    | some data => ⟨v, some (sendDmaReadResponse txnId addr data .success now), true⟩

/-- The length that counts is the payload's. -/
def dmaWrite (v : Vars) (msg : Message) (now : UInt64) : Body :=
  let v := { v with sawDmaWrite := true }
  let addr := msg.header.address
  match v.memory.write addr msg.payload with
  | none        => ⟨v, some (sendDmaWriteResponse msg.header.txnId addr .errorOutOfBounds now), false⟩
  | some memory =>
    ⟨{ v with memory, completionBytes := msg.payload },
      some (sendDmaWriteResponse msg.header.txnId addr .success now), true⟩

/-- The body of the loop for a message that was read. -/
def service (v : Vars) (msg : Message) (now : UInt64) : Body :=
  if msg.header.isType .dmaReadReq then v.dmaRead msg now
  else if msg.header.isType .dmaWriteReq then v.dmaWrite msg now
  else if msg.header.isType .msiX then ⟨{ v with sawMsix := true }, none, true⟩
  else ⟨v, none, true⟩

end Vars

section Spec

variable (v : Vars) (msg : Message) (now : UInt64)

theorem Vars.dmaRead_memory : (v.dmaRead msg now).vars.memory = v.memory := by
  unfold Vars.dmaRead
  dsimp only
  split
  · rfl
  · split <;> rfl

/-- **A read is answered with the length that is asked for, if it is done.** -/
theorem Vars.dmaRead_reply : ∃ data status,
    (v.dmaRead msg now).reply = some (sendDmaReadResponse msg.header.txnId msg.header.address data status now) ∧
      (status = .success ↔ msg.header.transferLen ≠ 0 ∧
        inBoundsLocked v.memory.size msg.header.address msg.header.transferLen.toUInt64 = true) ∧
      data = if status = .success then
          Mem.read v.memory.data msg.header.address.toBitVec msg.header.transferLen.toNat
        else [] := by
  unfold Vars.dmaRead HostMemory.read
  dsimp only
  by_cases h0 : msg.header.transferLen = 0
  · rw [if_pos h0]
    exact ⟨[], _, rfl, iff_of_false nofun (fun h => h.1 h0), rfl⟩
  · rw [if_neg h0]
    by_cases hin : inBoundsLocked v.memory.size msg.header.address msg.header.transferLen.toUInt64 = true
    · rw [if_pos hin]
      exact ⟨_, _, rfl, iff_of_true rfl ⟨h0, hin⟩, rfl⟩
    · rw [if_neg hin]
      exact ⟨[], _, rfl, iff_of_false nofun (fun h => hin h.2), rfl⟩

/-- **A write out of bounds is refused and changes nothing; any other is done.** -/
theorem Vars.dmaWrite_reply : ∃ status,
    (v.dmaWrite msg now).reply = some (sendDmaWriteResponse msg.header.txnId msg.header.address status now) ∧
      (status = .success ↔
        inBoundsLocked v.memory.size msg.header.address (UInt64.ofNat msg.payload.length) = true) ∧
      (v.dmaWrite msg now).vars.memory = if status = .success then
          { v.memory with data := Mem.write v.memory.data msg.header.address.toBitVec msg.payload }
        else v.memory := by
  unfold Vars.dmaWrite HostMemory.write
  dsimp only
  by_cases hin : inBoundsLocked v.memory.size msg.header.address (UInt64.ofNat msg.payload.length) = true
  · rw [if_pos hin]
    exact ⟨_, rfl, iff_of_true rfl hin, rfl⟩
  · rw [if_neg hin]
    exact ⟨_, rfl, iff_of_false nofun hin, rfl⟩

theorem Vars.size_service : (v.service msg now).vars.memory.size = v.memory.size := by
  unfold Vars.service
  split
  · rw [Vars.dmaRead_memory]
  · split
    · obtain ⟨status, -, -, hmem⟩ := v.dmaWrite_reply msg now
      rw [hmem]
      split <;> rfl
    · split <;> rfl

end Spec

/-- The variables in the client, whose memory has its size. -/
structure Client extends Vars where
  size : memory.size = kMemorySize

def Client.after (s : Client) (msg : Message) (now : UInt64) : Client where
  toVars := (s.service msg now).vars
  size   := (s.size_service msg now).trans s.size

end HostClient
end Vip
