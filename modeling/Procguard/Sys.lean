import Procguard.Interact
import Procguard.TimeMath

/- What procguard asks of the system, and what it may be answered. A request
   names the part of the program that makes it (`Caller`), so that the log tells
   the monitor's signals from the throttle's and the hook's; the tag changes
   nothing else. An answer is any value of its type: every error number, every
   event and every reading is possible unless a theorem assumes otherwise.

   `kevent` is called with room for one event and no time limit, so it returns -1
   or one event. Error numbers, filters, flags and signal numbers are macOS's. -/
namespace Procguard
open Interact

/-! Error numbers. -/

def EPERM : Int := 1
def ENOENT : Int := 2
def ESRCH : Int := 3
def EINTR : Int := 4
def EBADF : Int := 9
def ECHILD : Int := 10
def EACCES : Int := 13
def ENOTDIR : Int := 20

inductive Signal where
  | sighup | sigint | sigquit | sigill | sigtrap | sigabrt | sigbus | sigfpe | sigkill | sigusr1
  | sigsegv | sigusr2 | sigpipe | sigalrm | sigterm | sigchld | sigcont | sigstop | sigtstp
  | sigttin | sigttou | sigurg | sigxcpu | sigxfsz | sigvtalrm | sigprof | sigwinch | sigio | sigsys
  deriving DecidableEq, Repr

namespace Signal

def asRaw : Signal → Int
  | sighup => 1 | sigint => 2 | sigquit => 3 | sigill => 4 | sigtrap => 5 | sigabrt => 6
  | sigfpe => 8 | sigkill => 9 | sigbus => 10 | sigsegv => 11 | sigsys => 12 | sigpipe => 13
  | sigalrm => 14 | sigterm => 15 | sigurg => 16 | sigstop => 17 | sigtstp => 18 | sigcont => 19
  | sigchld => 20 | sigttin => 21 | sigttou => 22 | sigio => 23 | sigxcpu => 24 | sigxfsz => 25
  | sigvtalrm => 26 | sigprof => 27 | sigwinch => 28 | sigusr1 => 30 | sigusr2 => 31

def tryFromRaw : Int → Option Signal
  | 1 => some sighup | 2 => some sigint | 3 => some sigquit | 4 => some sigill
  | 5 => some sigtrap | 6 => some sigabrt | 8 => some sigfpe | 9 => some sigkill
  | 10 => some sigbus | 11 => some sigsegv | 12 => some sigsys | 13 => some sigpipe
  | 14 => some sigalrm | 15 => some sigterm | 16 => some sigurg | 17 => some sigstop
  | 18 => some sigtstp | 19 => some sigcont | 20 => some sigchld | 21 => some sigttin
  | 22 => some sigttou | 23 => some sigio | 24 => some sigxcpu | 25 => some sigxfsz
  | 26 => some sigvtalrm | 27 => some sigprof | 28 => some sigwinch | 30 => some sigusr1
  | 31 => some sigusr2 | _ => none

def name : Signal → String
  | sighup => "SIGHUP" | sigint => "SIGINT" | sigquit => "SIGQUIT" | sigill => "SIGILL"
  | sigtrap => "SIGTRAP" | sigabrt => "SIGABRT" | sigbus => "SIGBUS" | sigfpe => "SIGFPE"
  | sigkill => "SIGKILL" | sigusr1 => "SIGUSR1" | sigsegv => "SIGSEGV" | sigusr2 => "SIGUSR2"
  | sigpipe => "SIGPIPE" | sigalrm => "SIGALRM" | sigterm => "SIGTERM" | sigchld => "SIGCHLD"
  | sigcont => "SIGCONT" | sigstop => "SIGSTOP" | sigtstp => "SIGTSTP" | sigttin => "SIGTTIN"
  | sigttou => "SIGTTOU" | sigurg => "SIGURG" | sigxcpu => "SIGXCPU" | sigxfsz => "SIGXFSZ"
  | sigvtalrm => "SIGVTALRM" | sigprof => "SIGPROF" | sigwinch => "SIGWINCH" | sigio => "SIGIO"
  | sigsys => "SIGSYS"

theorem tryFromRaw_asRaw (s : Signal) : tryFromRaw s.asRaw = some s := by cases s <;> rfl

end Signal

/-! kqueue: filters, flags and the event record. -/

def EVFILT_READ : Int := -1
def EVFILT_PROC : Int := -5
def EVFILT_TIMER : Int := -7
def EV_ADD : UInt16 := 0x0001
def EV_DELETE : UInt16 := 0x0002
def EV_ONESHOT : UInt16 := 0x0010
def EV_ERROR : UInt16 := 0x4000
def EV_EOF : UInt16 := 0x8000
def NOTE_EXIT : Nat := 0x80000000
def NOTE_NSECONDS : Nat := 0x00000004

/-- `libc::kevent` (`udata` is always null). -/
structure Kevent where
  ident : Nat
  filter : Int
  flags : UInt16
  fflags : Nat := 0
  data : Int := 0
  deriving DecidableEq, Repr

/-- Whether the event carries the flag. -/
def Kevent.has (ev : Kevent) (flag : UInt16) : Bool := ev.flags &&& flag != 0

/-- The error number an `EV_ERROR` event carries. -/
def Kevent.errCode (ev : Kevent) : Int := asI32 ev.data

def POLLIN : UInt16 := 0x0001
def POLLHUP : UInt16 := 0x0010

/-- The status word of `wait4`, an i32. -/
structure RawExitStatus where
  status : BitVec 32
  deriving DecidableEq, Repr

/-- The fields of `libc::rusage` that are read. -/
structure Rusage where
  utimeSec : Int := 0
  utimeUsec : Int := 0
  stimeSec : Int := 0
  stimeUsec : Int := 0
  maxrss : Int := 0
  deriving DecidableEq, Repr

/-- The fields of `rusage_info_v4` that are read. -/
structure RusageInfo where
  userTime : UInt64
  systemTime : UInt64
  physFootprint : UInt64
  deriving DecidableEq, Repr

/-- The result of `nanosleep`: done, or the error and the time that remains. -/
structure Timespec where
  tvSec : Int
  tvNsec : Int
  deriving DecidableEq, Repr

/-- The part of the program a request comes from. -/
inductive Caller where
  | monitor | throttle | memoryCheck | hook | retry
  deriving DecidableEq, Repr

inductive Call where
  | wallNow
  | activeNow
  | kqueue
  | kevent (kq : Int) (changes : List Kevent)
  | close (fd : Int)
  | loadSignalPipe
  | fstatStdin
  | pollStdin
  | readStdin
  | readSignalPipe (fd : Int)
  | wait4 (pid : Int)
  | wait4NoHang (pid : Int)
  | kill (pid sig : Int)
  | killpg (pid sig : Int)
  | procPidRusage (pid : Int)
  | eprintln (line : String)
  | posixSpawnp (command : String) (args : List String) (processGroup : Bool)
  | fork (command : String) (args : List String) (processGroup : Bool)
      (memBytes : Option Nat) (cpuSecs : Option Nat)
  | nanosleep (ts : Timespec)
  deriving DecidableEq, Repr

structure Req where
  caller : Caller
  call : Call
  deriving DecidableEq, Repr

/-- A call that writes to stderr. -/
def Req.prints : Req → Bool
  | ⟨_, .eprintln _⟩ => true
  | _ => false

@[reducible] def Call.Ans : Call → Type
  | .wallNow => Option UInt64
  | .activeNow => UInt64
  | .kqueue => Except Int Int
  | .kevent _ _ => Except Int Kevent
  | .close _ => Unit
  | .loadSignalPipe => Int
  | .fstatStdin => Int
  | .pollStdin => Int × UInt16
  | .readStdin => Int
  | .readSignalPipe _ => Option UInt8
  | .wait4 _ => Except Int (RawExitStatus × Rusage)
  | .wait4NoHang _ => Except Int (Option (RawExitStatus × Rusage))
  | .kill _ _ => Except Int Unit
  | .killpg _ _ => Except Int Unit
  | .procPidRusage _ => Option RusageInfo
  | .eprintln _ => Unit
  | .posixSpawnp _ _ _ => Except Int Int
  | .fork _ _ _ _ _ => Except Int Int
  | .nanosleep _ => Except (Int × Timespec) Unit

abbrev Ans (r : Req) : Type := r.call.Ans

abbrev Event := Ev Ans
abbrev Trace := Log Ans
abbrev World := Env Ans

abbrev SysProg := Prog Ans

/-- One system call. -/
abbrev sys {σ ε : Type} (caller : Caller) (c : Call) : Act Ans σ ε c.Ans :=
  Act.call (A := Ans) ⟨caller, c⟩

/-- A scripted system for concrete runs: what the log does not decide is fixed. -/
structure Machine where
  wallClock : Trace → Option UInt64 := fun _ => some 0
  activeClock : Trace → UInt64 := fun _ => 0
  kqueue : Except Int Int := .ok 5
  kevent : Trace → Except Int Kevent := fun _ => .error EINTR
  signalFd : Int := 3
  stdin : Int × UInt16 := (0, 0)
  signalByte : Trace → Option UInt8 := fun _ => none
  wait4 : Trace → Except Int (RawExitStatus × Rusage) := fun _ => .ok (⟨0⟩, {})
  wait4NoHang : Trace → Except Int (Option (RawExitStatus × Rusage)) := fun _ => .ok none
  kill : Trace → Int → Except Int Unit := fun _ _ => .ok ()
  rusage : Trace → Option RusageInfo := fun _ => some ⟨0, 0, 0⟩
  spawned : Except Int Int := .ok 7

def Machine.world (m : Machine) : World := fun l q => match q with
  | ⟨_, .wallNow⟩ => m.wallClock l
  | ⟨_, .activeNow⟩ => m.activeClock l
  | ⟨_, .kqueue⟩ => m.kqueue
  | ⟨_, .kevent _ _⟩ => m.kevent l
  | ⟨_, .close _⟩ => ()
  | ⟨_, .loadSignalPipe⟩ => m.signalFd
  | ⟨_, .fstatStdin⟩ => 0
  | ⟨_, .pollStdin⟩ => m.stdin
  | ⟨_, .readStdin⟩ => 0
  | ⟨_, .readSignalPipe _⟩ => m.signalByte l
  | ⟨_, .wait4 _⟩ => m.wait4 l
  | ⟨_, .wait4NoHang _⟩ => m.wait4NoHang l
  | ⟨_, .kill _ sig⟩ => m.kill l sig
  | ⟨_, .killpg _ sig⟩ => m.kill l sig
  | ⟨_, .procPidRusage _⟩ => m.rusage l
  | ⟨_, .eprintln _⟩ => ()
  | ⟨_, .posixSpawnp _ _ _⟩ => m.spawned
  | ⟨_, .fork _ _ _ _ _⟩ => m.spawned
  | ⟨_, .nanosleep _⟩ => .ok ()

end Procguard
