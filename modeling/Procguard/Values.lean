import Procguard.Duration
import Procguard.Config

/- The values options take besides a duration: memory and cpu limits (`rlimit.rs`) and
   signal names (`signal.rs`). -/
namespace Procguard
open Text

def u32Max : Nat := 2 ^ 32 - 1

/-! ## Memory and cpu limits -/

/-- `u64::checked_mul`. -/
def checkedMul64 (a b : Nat) : Option Nat := if a * b ≤ u64Max then some (a * b) else none

/-- The ASCII letters at the end are the suffix. -/
def splitNumberSuffix (s : List Char) : List Char × List Char :=
  (s.rdropWhile Char.isAlpha, s.rtakeWhile Char.isAlpha)

/-- Binary units. -/
def memUnit (suffix : List Char) : Option Nat :=
  match asciiLower suffix with
  | "" | "b" => some 1
  | "k" | "kb" => some 1024
  | "m" | "mb" => some (1024 * 1024)
  | "g" | "gb" => some (1024 * 1024 * 1024)
  | "t" | "tb" => some (satMul (satMul (satMul 1024 1024) 1024) 1024)
  | _ => none

def parseMemLimit (input : String) : Except TimeoutError Nat := do
  let s := trim input
  let text := String.ofList s
  if s.isEmpty then throw (.invalidMemoryLimit "empty")
  let (num, suffix) := splitNumberSuffix s
  -- require at least one digit - reject bare suffixes like "G"
  if num.isEmpty then throw (.invalidMemoryLimit s!"no numeric value in '{text}'")
  match readDigits u64Max 0 num with
  | none => throw (.invalidMemoryLimit s!"invalid memory value: '{text}'")
  | some value => match memUnit suffix with
    | none => throw (.invalidMemoryLimit s!"invalid memory suffix in '{text}'")
    | some mult => match checkedMul64 value mult with
      | none => throw (.invalidMemoryLimit s!"memory limit overflow: '{text}'")
      | some bytes => pure bytes

def parseCpuTime (input : String) : Except TimeoutError Duration := parseDuration input

/-- A `NonZeroU32`. -/
structure Percent where
  get : Nat
  pos : 0 < get
  lt : get < 2 ^ 32

theorem readDigits_le {max : Nat} : ∀ {cs : List Char} {acc n : Nat}, acc ≤ max →
    readDigits max acc cs = some n → n ≤ max
  | [], acc, n, hacc, h => by cases h; exact hacc
  | c :: cs, acc, n, _, h => by
    unfold readDigits at h
    split at h
    · split at h
      · next hle => exact readDigits_le hle h
      · cases h
    · cases h

theorem parseUnsigned_le {max n : Nat} {s : List Char} (h : parseUnsigned max s = some n) :
    n ≤ max := by
  unfold parseUnsigned at h
  split at h
  · cases h
  · split at h
    · cases h
    · exact readDigits_le (Nat.zero_le _) h
  · exact readDigits_le (Nat.zero_le _) h

/-- Percent of one core; more than 100 for several. -/
def parseCpuPercent (input : String) : Except TimeoutError Percent :=
  match h : parseUnsigned u32Max (trim input) with
  | none => .error (.invalidCpuPercent s!"invalid cpu percent: '{input}'")
  | some val =>
    if hval : val = 0 then .error (.invalidCpuPercent s!"cpu percent must be > 0: {val}")
    else .ok {
      get := val
      pos := Nat.pos_of_ne_zero hval
      lt := Nat.lt_of_le_of_lt (parseUnsigned_le h) (by decide) }

/-! ## Signal names -/

/-- The names without `SIG`, in the order in which they are tried. -/
def signalNames : List (String × Signal) := [
  ("TERM", .sigterm), ("KILL", .sigkill), ("INT", .sigint), ("HUP", .sighup), ("QUIT", .sigquit),
  ("ABRT", .sigabrt), ("IOT", .sigabrt), ("USR1", .sigusr1), ("USR2", .sigusr2),
  ("ALRM", .sigalrm), ("CONT", .sigcont), ("STOP", .sigstop), ("TSTP", .sigtstp),
  ("PIPE", .sigpipe), ("CHLD", .sigchld), ("SEGV", .sigsegv), ("BUS", .sigbus), ("FPE", .sigfpe),
  ("ILL", .sigill), ("TRAP", .sigtrap), ("TTIN", .sigttin), ("TTOU", .sigttou), ("URG", .sigurg),
  ("XCPU", .sigxcpu), ("XFSZ", .sigxfsz), ("VTALRM", .sigvtalrm), ("PROF", .sigprof),
  ("WINCH", .sigwinch), ("IO", .sigio), ("SYS", .sigsys)]

/-- Strip an optional `SIG` in any case. -/
def stripSig (input : List Char) : List Char :=
  match input with
  | s :: i :: g :: name =>
    if asciiLower [s, i, g] = "sig" then name else input
  | _ => input

def i32Max : Nat := 2 ^ 31 - 1

def parseSignal (input : String) : Except TimeoutError Signal :=
  let input := trim input
  match parseSigned i32Max input with
  | some num => match Signal.tryFromRaw num with
    | some sig => .ok sig
    | none => .error (.invalidSignal s!"invalid signal number: {num}")
  | none =>
    match signalNames.find? fun row => asciiLower row.1.toList == asciiLower (stripSig input) with
    | some (_, sig) => .ok sig
    | none =>
      let text := String.ofList input
      .error (.invalidSignal s!"unknown signal: {text}")

end Procguard
