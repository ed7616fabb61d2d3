import Procguard.Sys

/- Child processes and the errors of the crate. `RawChild` is the handle
   `process.rs` keeps of a spawned command: a pid and whether it was reaped. Its
   `wait` retries on EINTR, so it is a loop and takes fuel. -/
namespace Procguard
open Interact

/-- Everything that can go wrong. -/
inductive TimeoutError where
  | invalidDuration (s : String)
  | negativeDuration
  | durationOverflow
  | invalidMemoryLimit (s : String)
  | invalidCpuTime (s : String)
  | invalidCpuPercent (s : String)
  | invalidSignal (s : String)
  | commandNotFound (s : String)
  | permissionDenied (s : String)
  | spawnError (errno : Int)
  | signalError (errno : Int)
  | processGroupError (s : String)
  | resourceLimitError (errno : Int)
  | throttleAttachError (errno : Int)
  | throttleControlError (errno : Int)
  | internal (s : String)
  | waitForFileTimeout (path : String)
  | waitForFileError (path : String) (errno : Int)
  | timebaseError
  deriving DecidableEq, Repr

/-- `Display for TimeoutError`. -/
def TimeoutError.display : TimeoutError → String
  | .invalidDuration s => s!"invalid duration: {s}"
  | .negativeDuration => "invalid duration: negative values not allowed"
  | .durationOverflow => "invalid duration: value too large"
  | .invalidMemoryLimit s => s!"invalid memory limit: {s}"
  | .invalidCpuTime s => s!"invalid cpu time: {s}"
  | .invalidCpuPercent s => s!"invalid cpu percent: {s}"
  | .invalidSignal s => s!"invalid signal: {s}"
  | .commandNotFound s => s!"command not found: {s}"
  | .permissionDenied s => s!"permission denied: {s}"
  | .spawnError errno => s!"failed to spawn process: errno {errno}"
  | .signalError errno => s!"signal error: errno {errno}"
  | .processGroupError s => s!"process group error: {s}"
  | .resourceLimitError errno => s!"failed to apply resource limits: errno {errno}"
  | .throttleAttachError errno => s!"failed to attach CPU throttle: kern_return {errno}"
  | .throttleControlError errno => s!"failed to control CPU throttle: kern_return {errno}"
  | .internal s => s!"internal error: {s}"
  | .waitForFileTimeout path => s!"timed out waiting for file: {path}"
  | .waitForFileError path errno => s!"error checking file '{path}': errno {errno}"
  | .timebaseError => "invalid mach timebase info (zero denominator)"

/-- Error from process operations. -/
inductive SpawnError where
  | notFound (s : String)
  | permissionDenied (s : String)
  | spawn (errno : Int)
  | wait (errno : Int)
  | invalidArg
  deriving DecidableEq, Repr

/-- `Display for SpawnError`. -/
def SpawnError.display : SpawnError → String
  | .notFound s => s!"command not found: {s}"
  | .permissionDenied s => s!"permission denied: {s}"
  | .spawn e => s!"spawn error: errno {e}"
  | .wait e => s!"wait error: errno {e}"
  | .invalidArg => "invalid argument"

namespace RawExitStatus

def exitedNormally (s : RawExitStatus) : Bool := s.status &&& 0x7F#32 == 0#32

def signaled (s : RawExitStatus) : Bool :=
  (0#32).slt (((s.status &&& 0x7F#32) + 1#32).sshiftRight 1)

def code (s : RawExitStatus) : Option Int :=
  if s.exitedNormally then some (s.status.sshiftRight 8 &&& 0xFF#32).toInt else none

def signal (s : RawExitStatus) : Option Int :=
  if s.signaled then some (s.status &&& 0x7F#32).toInt else none

end RawExitStatus

/-- Resource usage from `wait4`. -/
structure ResourceUsage where
  userTimeUs : Nat
  systemTimeUs : Nat
  maxRssKb : Nat
  deriving DecidableEq, Repr

/-- macOS reports `ru_maxrss` in bytes; negative fields count as zero. -/
def rusageToResourceUsage (r : Rusage) : ResourceUsage where
  userTimeUs := satAdd (satMul r.utimeSec.toNat 1000000) r.utimeUsec.toNat
  systemTimeUs := satAdd (satMul r.stimeSec.toNat 1000000) r.stimeUsec.toNat
  maxRssKb := r.maxrss.toNat / 1024

/-- A child process handle. -/
structure RawChild where
  pid : Int
  exited : Bool := false
  deriving DecidableEq, Repr

abbrev ChildAct := Act Ans RawChild SpawnError

namespace RawChild

/-- One `wait4` that blocks: retry on EINTR, fail on any other error. -/
def waitRound (caller : Caller) (pid : Int) (_ : Unit) :
    ChildAct (Unit ⊕ (RawExitStatus × Rusage)) := do
  match ← sys caller (.wait4 pid) with
  | .ok st => pure (.inr st)
  | .error err => if err = EINTR then pure (.inl ()) else Act.throw (.wait err)

/-- Wait for the process to exit, blocking. -/
def wait (caller : Caller) (fuel : Nat) : ChildAct (RawExitStatus × ResourceUsage) := do
  let child ← Act.get
  if child.exited then Act.throw (.wait ECHILD)
  else
    let (status, rusage) ← Act.iterate (waitRound caller child.pid) fuel ()
    Act.modify fun c => { c with exited := true }
    pure (status, rusageToResourceUsage rusage)

/-- Check whether the process has exited, without blocking. -/
def tryWait (caller : Caller) : ChildAct (Option (RawExitStatus × ResourceUsage)) := do
  let child ← Act.get
  if child.exited then Act.throw (.wait ECHILD)
  else match ← sys caller (.wait4NoHang child.pid) with
    | .error err => Act.throw (.wait err)
    | .ok none => pure none
    | .ok (some (status, rusage)) =>
      Act.modify fun c => { c with exited := true }
      pure (some (status, rusageToResourceUsage rusage))

end RawChild

/-- `CString::new` refuses a text that holds a NUL. -/
def hasNul (s : String) : Bool := s.toList.contains '\x00'

/-- How an error number of `posix_spawnp` is reported. -/
def spawnErrorOf (command : String) (errno : Int) : SpawnError :=
  if errno = ENOENT then .notFound command
  else if errno = EACCES ∨ errno = EPERM then .permissionDenied command
  else .spawn errno

/-- Spawn a command with `posix_spawnp`. -/
def spawnCommand (caller : Caller) (command : String) (args : List String)
    (useProcessGroup : Bool) : SysProg (Except SpawnError RawChild) :=
  if hasNul command || args.any hasNul then .done (.error .invalidArg)
  else .ask ⟨caller, .posixSpawnp command args useProcessGroup⟩ fun r => .done <| match r with
    | .ok pid => .ok { pid }
    | .error errno => .error (spawnErrorOf command errno)

/-- `ResourceLimits`. -/
structure ResourceLimits where
  memBytes : Option Nat := none
  cpuTime : Option Duration := none

def ResourceLimits.isEmpty (r : ResourceLimits) : Bool := r.memBytes.isNone && r.cpuTime.isNone

/-- Spawn a command with `fork`; the child applies the limits and execs. -/
def spawnCommandWithLimits (caller : Caller) (command : String) (args : List String)
    (useProcessGroup : Bool) (limits : ResourceLimits) : SysProg (Except SpawnError RawChild) :=
  if hasNul command || args.any hasNul then .done (.error .invalidArg)
  else .ask ⟨caller, .fork command args useProcessGroup limits.memBytes
      (limits.cpuTime.map Duration.asSecs)⟩ fun r => .done <| match r with
    | .ok pid => .ok { pid }
    | .error errno => .error (.spawn errno)

end Procguard
