import Procguard.Checked
import Procguard.LittleEndian
import Procguard.Throttle

/- `proc_info.rs`: the counters of a process, read out of the bytes that the kernel writes.
   The kernel writes `rusage_info` to the front of a zeroed buffer of 512 bytes, and later
   systems write more of it; the readers look at fixed offsets. A run of the monitor is
   answered by a `RusageInfo`, the three counters that are read: `infoOf` is that answer as
   the bytes give it, so what holds of runs over such answers holds over the bytes. -/
namespace Procguard
open Checked (Run)
open LittleEndian

def rusageBufferSize : Nat := 512
def offsetUserTime : Nat := 16
def offsetSystemTime : Nat := 24
def offsetPhysFootprint : Nat := 72

structure AlignedBuffer where
  bytes : List UInt8
  size : bytes.length = rusageBufferSize

/-- What the kernel writes fits into the buffer. -/
structure KernelWrite where
  bytes : List UInt8
  fits : bytes.length ≤ rusageBufferSize

def AlignedBuffer.zeroed : AlignedBuffer where
  bytes := List.replicate rusageBufferSize 0
  size := List.length_replicate

theorem written_size (b : AlignedBuffer) (k : KernelWrite) :
    (k.bytes ++ b.bytes.drop k.bytes.length).length = rusageBufferSize := by
  have hk := k.fits
  have hb := b.size
  rw [List.length_append, List.length_drop]
  omega

/-- The buffer after the kernel has written to its front. -/
def AlignedBuffer.written (b : AlignedBuffer) (k : KernelWrite) : AlignedBuffer where
  bytes := k.bytes ++ b.bytes.drop k.bytes.length
  size := written_size b k

/-- The result of `proc_pid_rusage`, and what it wrote. -/
structure RusageReply where
  ret : Int
  write : KernelWrite

variable {ε : Type}

/-- A slice past the end of the buffer panics. -/
def readU64 (buf : AlignedBuffer) (offset : Nat) : Run ε UInt64 :=
  if offset + 8 ≤ buf.bytes.length then .ok (UInt64.ofNat (value (slice buf.bytes offset 8)))
  else .error .panic

def getRusageRaw (reply : RusageReply) : Option AlignedBuffer :=
  if reply.ret < 0 then none else some (AlignedBuffer.zeroed.written reply.write)

def getProcessMemory (reply : RusageReply) : Run ε (Option UInt64) :=
  match getRusageRaw reply with
  | none => .ok none
  | some buf => do
    let footprint ← readU64 buf offsetPhysFootprint
    .ok (some footprint)

/-- `u64::saturating_add`. -/
def saturatingAdd (a b : UInt64) : UInt64 := UInt64.ofNat (satAdd a.toNat b.toNat)

def getProcessCpuTime (reply : RusageReply) : Run ε (Option UInt64) :=
  match getRusageRaw reply with
  | none => .ok none
  | some buf => do
    let user ← readU64 buf offsetUserTime
    let system ← readU64 buf offsetSystemTime
    .ok (some (saturatingAdd user system))

structure ProcessStats where
  memoryBytes : UInt64
  cpuTimeNs : UInt64

def getProcessStats (pid : Int) (reply : RusageReply) : Run TimeoutError ProcessStats :=
  match getRusageRaw reply with
  | none => .error (.stop (.internal s!"proc_pid_rusage failed for pid {pid}"))
  | some buf => do
    let memoryBytes ← readU64 buf offsetPhysFootprint
    let user ← readU64 buf offsetUserTime
    let system ← readU64 buf offsetSystemTime
    .ok { memoryBytes, cpuTimeNs := saturatingAdd user system }

/-! ## The answer that a run is given -/

/-- The word at an offset. -/
def AlignedBuffer.word (buf : AlignedBuffer) (offset : Nat) : UInt64 :=
  UInt64.ofNat (value (slice buf.bytes offset 8))

def AlignedBuffer.info (buf : AlignedBuffer) : RusageInfo where
  userTime := buf.word offsetUserTime
  systemTime := buf.word offsetSystemTime
  physFootprint := buf.word offsetPhysFootprint

/-- What a run is answered when the kernel replies so. -/
def infoOf (reply : RusageReply) : Option RusageInfo :=
  (getRusageRaw reply).map AlignedBuffer.info

theorem readU64_ok (buf : AlignedBuffer) {offset : Nat} (h : offset + 8 ≤ rusageBufferSize) :
    (readU64 buf offset : Run ε UInt64) = .ok (buf.word offset) := by
  unfold readU64
  rw [buf.size, if_pos h]
  rfl

theorem saturatingAdd_toNat (a b : UInt64) :
    (saturatingAdd a b).toNat = satAdd a.toNat b.toNat := by
  have hle : satAdd a.toNat b.toNat < 2 ^ 64 := by
    unfold satAdd u64Max
    omega
  exact UInt64.toNat_ofNat_of_lt' hle

/-! ## The struct -/

/-- `rusage_info` of any version: the counters up to the footprint, and what later versions
    have after it, within the buffer. -/
structure RusageStruct where
  uuid : List UInt8
  userTime : UInt64
  systemTime : UInt64
  pkgIdleWkups : UInt64
  interruptWkups : UInt64
  pageins : UInt64
  wiredSize : UInt64
  residentSize : UInt64
  physFootprint : UInt64
  more : List UInt8
  uuid_size : uuid.length = 16
  fits : 80 + more.length ≤ rusageBufferSize

namespace RusageStruct

def counters (s : RusageStruct) : List UInt64 :=
  [s.userTime, s.systemTime, s.pkgIdleWkups, s.interruptWkups, s.pageins, s.wiredSize,
    s.residentSize, s.physFootprint]

/-- The struct in memory. -/
def layout (s : RusageStruct) : List UInt8 :=
  s.uuid ++ (record 8 (s.counters.map UInt64.toNat) ++ s.more)

theorem layout_fits (s : RusageStruct) : s.layout.length ≤ rusageBufferSize := by
  have hfits := s.fits
  have huuid := s.uuid_size
  have hcount : s.counters.length = 8 := rfl
  simp only [layout, List.length_append, length_record, List.length_map]
  omega

def write (s : RusageStruct) : KernelWrite where
  bytes := s.layout
  fits := s.layout_fits

/-- Counter `i` is the word at `16 + 8 * i`. -/
theorem word_layout (s : RusageStruct) (b : AlignedBuffer) (i : Nat) {c : UInt64}
    (h : s.counters[i]? = some c) : (b.written s.write).word (16 + 8 * i) = c := by
  have hword : (s.counters.map UInt64.toNat)[i]? = some c.toNat := by
    rw [List.getElem?_map, h]
    rfl
  have hsmall : c.toNat % 256 ^ 8 = c.toNat := Nat.mod_eq_of_lt c.toNat_lt
  -- behind the struct stands what was in the buffer before
  let tail := b.bytes.drop s.layout.length
  calc (b.written s.write).word (16 + 8 * i)
      = UInt64.ofNat (value (slice (s.layout ++ tail) (16 + 8 * i) 8)) := rfl
    _ = UInt64.ofNat (value (bytes 8 c.toNat)) := by
        rw [layout, List.append_assoc, List.append_assoc, ← s.uuid_size, slice_append,
          slice_record 8 _ hword]
    _ = c := by rw [value_bytes, hsmall, UInt64.ofNat_toNat]

/-- The readers look at the counters that they mean. -/
theorem infoOf_reply (s : RusageStruct) (ret : Nat) :
    infoOf ⟨ret, s.write⟩ = some ⟨s.userTime, s.systemTime, s.physFootprint⟩ := by
  have hret : ¬ (ret : Int) < 0 := by omega
  have hinfo : (AlignedBuffer.zeroed.written s.write).info =
      ⟨s.userTime, s.systemTime, s.physFootprint⟩ := by
    unfold AlignedBuffer.info
    congr 1
    -- the offsets 16, 24 and 72 are those of counters 0, 1 and 7
    · exact s.word_layout .zeroed 0 rfl
    · exact s.word_layout .zeroed 1 rfl
    · exact s.word_layout .zeroed 7 rfl
  rw [infoOf, getRusageRaw, if_neg hret, Option.map_some, hinfo]

end RusageStruct

/-- **The counters are read exactly**: whatever the kernel wrote, the readers stay inside the
    buffer and return what a run takes from its answer, or fail where the call failed; and of
    a struct of any version they return its user time, system time and footprint. -/
theorem rusage_read_exactly :
    (∀ (reply : RusageReply) (pid : Int),
      (getProcessMemory reply : Run TimeoutError (Option UInt64)).map (Option.map UInt64.toNat) =
        .ok ((infoOf reply).map RusageInfo.memoryBytes) ∧
      (getProcessCpuTime reply : Run TimeoutError (Option UInt64)).map (Option.map UInt64.toNat) =
        .ok ((infoOf reply).map RusageInfo.cpuTimeNs) ∧
      (getProcessStats pid reply).map (fun s => (s.memoryBytes.toNat, s.cpuTimeNs.toNat)) =
        ((infoOf reply).map fun info => (info.memoryBytes, info.cpuTimeNs)).elim
          (.error (.stop (.internal s!"proc_pid_rusage failed for pid {pid}"))) .ok ∧
      (infoOf reply = none ↔ reply.ret < 0)) ∧
    ∀ (s : RusageStruct) (ret : Nat),
      infoOf ⟨ret, s.write⟩ = some ⟨s.userTime, s.systemTime, s.physFootprint⟩ := by
  refine ⟨?_, RusageStruct.infoOf_reply⟩
  intro reply pid
  unfold getProcessMemory getProcessCpuTime getProcessStats infoOf
  cases hraw : getRusageRaw reply with
  | none =>
    have hret : reply.ret < 0 := by
      by_contra hret
      rw [getRusageRaw, if_neg hret] at hraw
      cases hraw
    simp [Except.map, hret]
  | some buf =>
    have hret : ¬ reply.ret < 0 := by
      intro hret
      rw [getRusageRaw, if_pos hret] at hraw
      cases hraw
    -- the three offsets leave room for a word
    have huser : (readU64 buf offsetUserTime : Run TimeoutError UInt64) = _ :=
      readU64_ok buf (by decide)
    have hsystem : (readU64 buf offsetSystemTime : Run TimeoutError UInt64) = _ :=
      readU64_ok buf (by decide)
    have hfootprint : (readU64 buf offsetPhysFootprint : Run TimeoutError UInt64) = _ :=
      readU64_ok buf (by decide)
    simp [huser, hsystem, hfootprint, Except.map, saturatingAdd_toNat, hret, AlignedBuffer.info,
      RusageInfo.memoryBytes, RusageInfo.cpuTimeNs]

end Procguard
