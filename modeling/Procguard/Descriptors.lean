import Procguard.FdTable
import Procguard.Registration

/- Which descriptor is which. `setup_signal_forwarding` opens a pipe, and `pipe` takes the
   lowest free descriptors; the wait knows stdin as descriptor 0 and the signal pipe as
   `SIGNAL_PIPE`, and a line for stderr goes to descriptor 2, whatever that is. `Forwarding`
   is the part of the process state that decides what a descriptor refers to and what is in
   the pipe; `forwardingAt` follows it through a run, the handlers running whenever they
   like. A byte of the pipe is taken for stdin only if the pipe got descriptor 0, and a byte
   of a line for a signal only if it got descriptor 2. -/
namespace Procguard
open Interact

/-! ## The process -/

/-- What a descriptor of the process refers to. -/
inductive OpenFile where
  | inherited | signalRead | signalWrite | kqueue
  deriving DecidableEq, Repr

/-- A byte in the pipe: a handler's, or one of a line for stderr. -/
inductive Written where
  | signal (sig : Signal)
  | text (b : UInt8)
  deriving DecidableEq, Repr

/-- The byte a handler writes. -/
def signalByte (sig : Signal) : UInt8 := UInt8.ofNat sig.asRaw.toNat

def Written.byte : Written → UInt8
  | .signal sig => signalByte sig
  | .text b => b

def Written.isText : Written → Bool
  | .signal _ => false
  | .text _ => true

/-- What `eprintln` writes, the newline last. -/
def lineBytes (line : String) : List UInt8 := line.toUTF8.data.toList ++ [10]

/-- The descriptors, the statics of the forwarding, the signals that have its handler, and
    what is in the pipe. -/
structure Forwarding where
  table : FdTable.Table OpenFile
  signalPipe : Int := -1
  signalWriteFd : Int := -1
  handled : List Signal := []
  pipe : List Written := []
  deriving DecidableEq, Repr

namespace Forwarding

/-- What a descriptor refers to, also for a number that is none. -/
def fileAt (p : Forwarding) (fd : Int) : Option OpenFile :=
  if 0 ≤ fd then FdTable.file p.table fd.toNat else none

/-- The process as it is started, with these descriptors open. -/
def fresh (opened : List Bool) : Forwarding where
  table := opened.map fun o => if o then some .inherited else none

end Forwarding

/-- The answers of `fcntl`, for each descriptor: `F_GETFL` and `F_SETFL` succeed. -/
structure Fcntl where
  getFlags : Nat → Bool
  setFlags : Nat → Bool

/-- The descriptor is made non-blocking. -/
def Fcntl.nonBlocking (c : Fcntl) (fd : Nat) : Bool := c.getFlags fd && c.setFlags fd

/-- `pipe`: its two ends are the lowest free descriptors. -/
def openPipe (t : FdTable.Table OpenFile) : Option (Nat × Nat × FdTable.Table OpenFile) := do
  let (readFd, t) ← FdTable.allocate t .signalRead
  let (writeFd, t) ← FdTable.allocate t .signalWrite
  pure (readFd, writeFd, t)

/-- The signals whose handler is installed. -/
def forwardedSignals : List Signal := [.sigterm, .sigint, .sighup, .sigquit, .sigusr1, .sigusr2]

def setupSignalForwarding (c : Fcntl) (p : Forwarding) : Option Int × Forwarding :=
  match openPipe p.table with
  | none => (none, p)
  | some (readFd, writeFd, table) =>
    let closed := FdTable.release (FdTable.release table readFd) writeFd
    if !c.nonBlocking readFd then (none, { p with table := closed })
    else if !c.nonBlocking writeFd then (none, { p with table := closed })
    else if p.signalPipe ≠ -1 then
      (if 0 ≤ p.signalPipe then some p.signalPipe else none, { p with table := closed })
    else (some (readFd : Int),
      { p with table := table, signalPipe := readFd, signalWriteFd := writeFd,
               handled := forwardedSignals })

/-- The handler; its `write` may fail. -/
def signalHandler (p : Forwarding) (sig : Signal) (written : Bool) : Forwarding :=
  if 0 ≤ p.signalWriteFd ∧ written = true then { p with pipe := p.pipe ++ [.signal sig] } else p

theorem decodeSignalByte_signalByte (sig : Signal) : decodeSignalByte (signalByte sig) = sig := by
  cases sig <;> decide

/-! ## The process during a run -/

namespace Forwarding

/-- The process when the wait begins: the pipe has been set up, and `earlier` is in it. -/
def begun (c : Fcntl) (opened : List Bool) (earlier : List Written) : Forwarding :=
  { (setupSignalForwarding c (.fresh opened)).2 with pipe := earlier }

/-- A signal comes in. -/
def arrive (p : Forwarding) (arrival : Signal × Bool) : Forwarding :=
  if arrival.1 ∈ p.handled then signalHandler p arrival.1 arrival.2 else p

/-- What a call does to the descriptors and to the pipe, which takes a line whole. -/
def after (p : Forwarding) : Event → Forwarding
  | ⟨⟨_, .kqueue⟩, .ok kq⟩ => { p with table := FdTable.install p.table kq.toNat .kqueue }
  | ⟨⟨_, .close fd⟩, _⟩ =>
    if 0 ≤ fd then { p with table := FdTable.release p.table fd.toNat } else p
  | ⟨⟨_, .readSignalPipe fd⟩, some _⟩ =>
    if p.fileAt fd = some .signalRead then { p with pipe := p.pipe.tail } else p
  | ⟨⟨_, .readStdin⟩, n⟩ =>
    if p.fileAt 0 = some .signalRead then { p with pipe := p.pipe.drop n.toNat } else p
  | ⟨⟨_, .eprintln line⟩, _⟩ =>
    if p.fileAt 2 = some .signalWrite then
      { p with pipe := p.pipe ++ (lineBytes line).map .text } else p
  | _ => p

/-- The calls are answered by the descriptors, of which the kqueue watches those that are
    `registered`: `SIGNAL_PIPE` is read as it is, `fstat` fails on a closed descriptor,
    `kqueue` takes the lowest free one, a read of the pipe gives its bytes. A change fails
    with EBADF only for a closed descriptor, only a registered one is reported readable,
    and the pipe only when there is a byte in it. -/
def Answers (p : Forwarding) (registered : Nat → Bool) : Event → Prop
  | ⟨⟨_, .loadSignalPipe⟩, fd⟩ => fd = p.signalPipe
  | ⟨⟨_, .fstatStdin⟩, r⟩ => 0 ≤ r ↔ (p.fileAt 0).isSome = true
  | ⟨⟨_, .kqueue⟩, .ok kq⟩ => 0 ≤ kq ∧ FdTable.lowestFree p.table = some kq.toNat
  | ⟨⟨_, .kevent _ _⟩, .ok ev⟩ =>
    (ev.has EV_ERROR = true → ev.errCode = EBADF →
      ev.filter = EVFILT_READ ∧ p.fileAt ev.ident = none) ∧
    (ev.has EV_ERROR = false → ev.filter = EVFILT_READ →
      registered ev.ident = true ∧ ((ev.ident : Int) = p.signalPipe → p.pipe ≠ []))
  | ⟨⟨_, .readSignalPipe fd⟩, b⟩ => p.fileAt fd = some .signalRead →
    b = p.pipe.head?.map Written.byte
  | ⟨⟨_, .readStdin⟩, n⟩ => p.fileAt 0 = some .signalRead →
    n = if p.pipe = [] then (-1 : Int) else ((min 1024 p.pipe.length : Nat) : Int)
  | _ => True

end Forwarding

/-- The process when the request after each log is answered: `arrivals` are the signals
    that come in before that. -/
def forwardingAt (start : Forwarding) (arrivals : Trace → List (Signal × Bool)) :
    Trace → Forwarding
  | [] => (arrivals []).foldl Forwarding.arrive start
  | e :: l => (arrivals (e :: l)).foldl Forwarding.arrive ((forwardingAt start arrivals l).after e)

section reports
variable (P : Trace → Forwarding)

/-- The kernel answers by the descriptors and by what the wait has registered. -/
def KernelAnswers (e : Event) (l : Trace) : Prop :=
  (P l).Answers (fun ident => readRegistered .monitor ident (e :: l)) e

/-- The kernel reports the signal pipe readable. -/
def PipeReady : Event → Trace → Prop
  | ⟨⟨.monitor, .kevent _ _⟩, .ok ev⟩, l => ev.filter = EVFILT_READ ∧ ev.has EV_ERROR = false ∧
    (ev.ident : Int) = (P l).signalPipe
  | _, _ => False

/-- The signal pipe counts as stdin activity: it is read as stdin, or found readable as
    stdin. -/
def StdinTakesSignal : Event → Trace → Prop
  | ⟨⟨_, .readStdin⟩, n⟩, l => 0 < n ∧ (P l).fileAt 0 = some .signalRead
  | ⟨⟨_, .pollStdin⟩, r⟩, l => stdinPollStatus r = .readable ∧ (P l).fileAt 0 = some .signalRead
  | _, _ => False

/-- An event of the kqueue. -/
def isReport : Event → Bool
  | ⟨⟨.monitor, .kevent _ _⟩, .ok _⟩ => true
  | _ => false

instance (p : Forwarding) (registered : Nat → Bool) (e : Event) :
    Decidable (p.Answers registered e) := by
  obtain ⟨⟨caller, call⟩, a⟩ := e
  rcases call with _ | _ <;> first
    | exact isTrue trivial
    | exact inferInstanceAs (Decidable (_ = _))
    | exact inferInstanceAs (Decidable (_ ↔ _))
    | exact inferInstanceAs (Decidable (_ → _))
    | rcases a with _ | _ <;> first
      | exact isTrue trivial
      | exact inferInstanceAs (Decidable (_ ∧ _))

instance (e : Event) (l : Trace) : Decidable (KernelAnswers P e l) :=
  inferInstanceAs (Decidable (Forwarding.Answers _ _ _))

instance (e : Event) (l : Trace) : Decidable (PipeReady P e l) := by
  obtain ⟨⟨caller, call⟩, a⟩ := e
  rcases caller with _ | _ <;> rcases call with _ | _ <;> first
    | exact isFalse id
    | rcases a with _ | _ <;> first
      | exact isFalse id
      | exact inferInstanceAs (Decidable (_ ∧ _))

instance (e : Event) (l : Trace) : Decidable (StdinTakesSignal P e l) := by
  obtain ⟨⟨caller, call⟩, a⟩ := e
  rcases call with _ | _ <;> first
    | exact isFalse id
    | exact inferInstanceAs (Decidable (_ ∧ _))

/-- The pipe is reported when its first byte is one of a line for stderr. -/
def TextReported (e : Event) (l : Trace) : Prop :=
  PipeReady P e l ∧ (P l).pipe.head?.any Written.isText = true

instance (e : Event) (l : Trace) : Decidable (TextReported P e l) :=
  inferInstanceAs (Decidable (_ ∧ _))

/-- The pipe is watched and has something to read, and the kernel reports something else. -/
def PassesOver (e : Event) (l : Trace) : Prop :=
  isReport e = true ∧ readRegistered .monitor (P l).signalPipe.toNat (e :: l) = true ∧
    (P l).pipe ≠ [] ∧ ¬ PipeReady P e l

instance (e : Event) (l : Trace) : Decidable (PassesOver P e l) :=
  inferInstanceAs (Decidable (_ ∧ _ ∧ _ ∧ _))

/-- How often that happens. -/
def passedOver : Trace → Nat
  | [] => 0
  | e :: l => if PassesOver P e l then passedOver l + 1 else passedOver l

end reports

/-- stdin is not monitored: its idle timeout is not in force, and it is not drained. -/
def Watch.StdinOff (w : Watch) : Prop := w.stdin = false ∧ w.draining = false

/-- stdin has been looked up. -/
def StdinLookedUp (e : Event) (_ : Trace) : Prop := e.req = ⟨.monitor, .fstatStdin⟩

instance (e : Event) (l : Trace) : Decidable (StdinLookedUp e l) :=
  inferInstanceAs (Decidable (_ = _))

/-! ## The set-up -/

/-- Descriptor 2 is not given to the write end of a pipe that is opened first. -/
def StderrApart (opened : List Bool) : Prop :=
  opened[2]? = some true ∨ (opened[0]? = some true ↔ opened[1]? = some true)

section setup
variable {t t' : FdTable.Table OpenFile} {readFd writeFd : Nat} {opened : List Bool}

/-- The two ends are free descriptors, the read end the lowest. -/
theorem openPipe_eq_some (h : openPipe t = some (readFd, writeFd, t')) :
    FdTable.lowestFree t = some readFd ∧ FdTable.file t readFd = none ∧
      FdTable.file t writeFd = none ∧ readFd ≠ writeFd ∧
      ∀ fd, FdTable.file t' fd = if fd = writeFd then some .signalWrite
        else if fd = readFd then some .signalRead else FdTable.file t fd :=
  FdTable.allocatePair_eq_some h

/-- The pipe can be opened and made non-blocking. -/
def Fcntl.ready (c : Fcntl) (t : FdTable.Table OpenFile) : Bool :=
  match openPipe t with
  | none => false
  | some (readFd, writeFd, _) => c.nonBlocking readFd && c.nonBlocking writeFd

/-- A set-up that fails leaves the descriptors as they were. -/
theorem setup_failed {c : Fcntl} {p : Forwarding} (h : c.ready p.table = false) (fd : Nat) :
    (setupSignalForwarding c p).2.signalPipe = p.signalPipe ∧
      (setupSignalForwarding c p).2.handled = p.handled ∧
      FdTable.file (setupSignalForwarding c p).2.table fd = FdTable.file p.table fd := by
  unfold Fcntl.ready at h
  unfold setupSignalForwarding
  cases hpipe : openPipe p.table with
  | none => exact ⟨rfl, rfl, rfl⟩
  | some ends =>
    obtain ⟨readFd, writeFd, t'⟩ := ends
    obtain ⟨-, hr, hw, -, hfile⟩ := openPipe_eq_some hpipe
    have hclosed : FdTable.file (FdTable.release (FdTable.release t' readFd) writeFd) fd =
        FdTable.file p.table fd := by
      rw [FdTable.file_release, FdTable.file_release, hfile]
      by_cases hfdw : fd = writeFd
      · rw [if_pos hfdw, hfdw, hw]
      · rw [if_neg hfdw, if_neg hfdw]
        by_cases hfdr : fd = readFd
        · rw [if_pos hfdr, hfdr, hr]
        · rw [if_neg hfdr, if_neg hfdr]
    rw [hpipe] at h
    dsimp only at h ⊢
    cases hnr : c.nonBlocking readFd with
    | false => exact ⟨rfl, rfl, hclosed⟩
    | true =>
      cases hnw : c.nonBlocking writeFd with
      | false => exact ⟨rfl, rfl, hclosed⟩
      | true =>
        rw [hnr, hnw] at h
        cases h

/-- A set-up that succeeds in a process that had none. -/
theorem setup_done {c : Fcntl} {p : Forwarding} (h : c.ready p.table = true)
    (hp : p.signalPipe = -1) : ∃ readFd writeFd t', openPipe p.table = some (readFd, writeFd, t') ∧
      (setupSignalForwarding c p).2.signalPipe = readFd ∧
      (setupSignalForwarding c p).2.signalWriteFd = writeFd ∧
      (setupSignalForwarding c p).2.table = t' := by
  unfold Fcntl.ready at h
  unfold setupSignalForwarding
  cases hpipe : openPipe p.table with
  | none =>
    rw [hpipe] at h
    cases h
  | some ends =>
    obtain ⟨readFd, writeFd, t'⟩ := ends
    rw [hpipe] at h
    obtain ⟨hnr, hnw⟩ := Bool.and_eq_true_iff.mp h
    refine ⟨readFd, writeFd, t', rfl, ?_⟩
    dsimp only
    rw [hnr, hnw, if_neg (by decide), if_neg (by decide), if_neg (by rw [hp]; decide)]
    exact ⟨rfl, rfl, rfl⟩

theorem file_fresh (opened : List Bool) (fd : Nat) :
    FdTable.file (Forwarding.fresh opened).table fd =
      if opened[fd]? = some true then some .inherited else none := by
  unfold FdTable.file Forwarding.fresh
  rw [List.getElem?_map]
  cases h : opened[fd]? with
  | none => rfl
  | some o => cases o <;> rfl

theorem open_iff (opened : List Bool) (fd : Nat) :
    FdTable.file (Forwarding.fresh opened).table fd ≠ none ↔ opened[fd]? = some true := by
  rw [file_fresh]
  split <;> simp_all

/-- The write end takes descriptor 2 only when that and one of 0 and 1 were free. -/
theorem openPipe_stderr (h : openPipe (Forwarding.fresh opened).table = some (readFd, writeFd, t'))
    (hs : StderrApart opened) : writeFd ≠ 2 := by
  rintro rfl
  obtain ⟨hlow, hread, hwrite, hne, -⟩ := openPipe_eq_some h
  have hless : readFd < 2 := by
    by_contra hge
    exact FdTable.lowestFree_lt hlow (by omega) hwrite
  -- of 0 and 1, the read end is the one that was free
  have hfree : ¬ opened[readFd]? = some true := fun ho => (open_iff opened readFd).mpr ho hread
  have hother : ∀ fd < 2, fd ≠ readFd → opened[fd]? = some true := fun fd hfd hother =>
    (open_iff opened fd).mp (FdTable.allocatePair_lt h hfd hother)
  rcases hs with htwo | hiff
  · exact (open_iff opened 2).mpr htwo hwrite
  · rcases Nat.lt_or_ge 0 readFd with hpos | hzero
    · obtain rfl : readFd = 1 := by omega
      exact hfree (hiff.mp (hother 0 (by omega) (by omega)))
    · obtain rfl : readFd = 0 := by omega
      exact hfree (hiff.mpr (hother 1 (by omega) (by omega)))

/-- What the set-up of a fresh process leaves: what `SIGNAL_PIPE` and the descriptors of the
    standard streams refer to. -/
structure Forwarding.Started (opened : List Bool) (ready : Bool) (p : Forwarding) : Prop where
  pipeEnd : 0 ≤ p.signalPipe → p.fileAt p.signalPipe = some .signalRead
  bound : p.signalPipe < opened.length
  forwards : p.handled ≠ [] → 0 ≤ p.signalPipe ∧ 0 ≤ p.signalWriteFd
  apart : opened[0]? = some true ∨ ready = false → p.fileAt 0 ≠ some .signalRead
  closed : opened[0]? ≠ some true → ready = false → p.fileAt 0 = none
  aliased : opened[0]? ≠ some true → ready = true → p.fileAt 0 = some .signalRead
  stderr : StderrApart opened → p.fileAt 2 ≠ some .signalWrite

theorem setup_started (c : Fcntl) (opened : List Bool) :
    (setupSignalForwarding c (.fresh opened)).2.Started opened
      (c.ready (Forwarding.fresh opened).table) := by
  cases hready : c.ready (Forwarding.fresh opened).table with
  -- a set-up that fails leaves no pipe and the table as it was
  | false =>
    have hnone : (setupSignalForwarding c (.fresh opened)).2.signalPipe = -1 :=
      (setup_failed hready 0).1
    have hhandled : (setupSignalForwarding c (.fresh opened)).2.handled = [] :=
      (setup_failed hready 0).2.1
    have hat : ∀ fd : Nat, (setupSignalForwarding c (.fresh opened)).2.fileAt fd =
        if opened[fd]? = some true then some .inherited else none := by
      intro fd
      rw [Forwarding.fileAt, if_pos (Int.natCast_nonneg fd), ← file_fresh]
      exact (setup_failed hready fd).2.2
    refine ⟨fun h => ?_, ?_, fun h => absurd hhandled h, fun _ => ?_, fun hclosed _ => ?_,
      fun _ h => (nomatch h), fun _ => ?_⟩
    · rw [hnone] at h
      exact absurd h (by decide)
    · rw [hnone]
      omega
    · refine ne_of_eq_of_ne (hat 0) ?_
      split <;> decide
    · exact (hat 0).trans (if_neg hclosed)
    · refine ne_of_eq_of_ne (hat 2) ?_
      split <;> decide
  | true =>
    obtain ⟨readFd, writeFd, t', hpipe, hsp, hwfd, ht'⟩ := setup_done hready rfl
    obtain ⟨hlow, hr, hw, hne, hfile⟩ := openPipe_eq_some hpipe
    have hat : ∀ fd : Nat, (setupSignalForwarding c (.fresh opened)).2.fileAt fd =
        FdTable.file t' fd := by
      intro fd
      rw [Forwarding.fileAt, if_pos (Int.natCast_nonneg fd), ht']
      rfl
    refine ⟨fun _ => ?_, ?_, fun _ => ?_, fun h => ?_, fun _ h => (nomatch h),
      fun hclosed _ => ?_, fun hapart => ?_⟩
    · rw [hsp, hat, hfile, if_neg hne, if_pos rfl]
    · have hlt := (FdTable.lowestFree_free hlow).1
      rw [Forwarding.fresh, List.length_map] at hlt
      rw [hsp]
      omega
    · rw [hsp, hwfd]
      exact ⟨Int.natCast_nonneg readFd, Int.natCast_nonneg writeFd⟩
    · -- an open descriptor 0 is neither end of the pipe
      rcases h with hopen | h
      · have h₀ : FdTable.file (Forwarding.fresh opened).table 0 = some .inherited := by
          rw [file_fresh, if_pos hopen]
        have hat₀ := hat 0
        rw [hfile, if_neg (fun h => by rw [← h, h₀] at hw; cases hw),
          if_neg (fun h => by rw [← h, h₀] at hr; cases hr), h₀] at hat₀
        rw [show ((0 : Nat) : Int) = 0 from rfl] at hat₀
        rw [hat₀]
        decide
      · cases h
    -- descriptor 0 was free, so the read end of the pipe took it
    · have h₀ : FdTable.file (Forwarding.fresh opened).table 0 = none := by
        rw [file_fresh, if_neg hclosed]
      obtain rfl : readFd = 0 := FdTable.lowestFree_zero hlow h₀
      have hat₀ := hat 0
      rwa [hfile, if_neg hne, if_pos rfl] at hat₀
    · refine ne_of_eq_of_ne (hat 2) ?_
      rw [hfile, if_neg (openPipe_stderr hpipe hapart).symm]
      split
      · decide
      · rw [file_fresh]
        split <;> decide

theorem begun_started (c : Fcntl) (opened : List Bool) (earlier : List Written) :
    (Forwarding.begun c opened earlier).Started opened
      (c.ready (Forwarding.fresh opened).table) :=
  have h := setup_started c opened
  ⟨h.pipeEnd, h.bound, h.forwards, h.apart, h.closed, h.aliased, h.stderr⟩

end setup

/-! ## During the wait -/

namespace Watch

/-- A stdin that is not monitored stays so. -/
theorem StdinOff.step {w : Watch} (h : w.StdinOff) (e : Event) : (w.step e).StdinOff := by
  obtain ⟨hstdin, hdrain⟩ := h
  have hclose : w.closeStdin.StdinOff := ⟨rfl, rfl⟩
  obtain ⟨⟨caller, call⟩, ans⟩ := e
  -- the requests that are not followed, and then the ones that are
  by_cases hq : caller ≠ .monitor ∨ call.unwatched = true
  · rw [Watch.step_unwatched hq]
    exact ⟨hstdin, hdrain⟩
  · obtain ⟨hcaller, hcall⟩ := not_or.mp hq
    obtain rfl : caller = .monitor := not_not.mp hcaller
    cases call with
    | wallNow => cases ans <;> exact ⟨hstdin, hdrain⟩
    | activeNow => exact ⟨hstdin, hdrain⟩
    | kqueue => exact ⟨hstdin, hdrain⟩
    | kevent kq cs =>
      cases ans with
      | error err => exact ⟨hstdin, hdrain⟩
      | ok ev =>
        show (w.deliver ev).StdinOff
        unfold Watch.deliver
        repeat' split
        all_goals first | exact hclose | exact ⟨hstdin, hdrain⟩
    | loadSignalPipe => simp [Watch.StdinOff, Watch.step, Watch.begin, hstdin, hdrain]
    | fstatStdin =>
      dsimp only [Watch.step]
      split
      · exact hclose
      · exact ⟨hstdin, hdrain⟩
    | pollStdin =>
      show (w.poll _).StdinOff
      cases stdinPollStatus ans with
      | idle => exact ⟨hstdin, hdrain⟩
      | eof => exact ⟨rfl, hdrain⟩
      | readable =>
        unfold Watch.poll
        cases w.looping <;> exact ⟨hstdin, hdrain⟩
    | readStdin =>
      dsimp only [Watch.step]
      split
      · exact hclose
      · split <;> exact ⟨hstdin, hdrain⟩
    | _ => exact absurd rfl hcall

/-- Without a stdin timeout stdin is never monitored. -/
theorem stdinOff_of_none {a : WaitArgs} (h : a.stdinTimeout = none) :
    ∀ l : Trace, (watch (Watch.ofArgs a 0) l).StdinOff
  | [] => by constructor <;> simp [watch, Watch.ofArgs, h]
  | e :: l => (stdinOff_of_none h l).step e

end Watch

namespace Forwarding

/-- The statics and the handlers are as they were. -/
structure Keeps (p p' : Forwarding) : Prop where
  signalPipe : p'.signalPipe = p.signalPipe
  signalWriteFd : p'.signalWriteFd = p.signalWriteFd
  handled : p'.handled = p.handled

/-- Nothing but new bytes in the pipe. -/
structure Grew (p p' : Forwarding) : Prop extends p.Keeps p' where
  table : p'.table = p.table
  pipe : p.pipe <+: p'.pipe

theorem Keeps.trans {p p' p'' : Forwarding} (h : p.Keeps p') (h' : p'.Keeps p'') : p.Keeps p'' :=
  ⟨h'.signalPipe.trans h.signalPipe, h'.signalWriteFd.trans h.signalWriteFd,
    h'.handled.trans h.handled⟩

theorem Grew.refl (p : Forwarding) : p.Grew p := ⟨⟨rfl, rfl, rfl⟩, rfl, List.prefix_refl _⟩

theorem Grew.trans {p p' p'' : Forwarding} (h : p.Grew p') (h' : p'.Grew p'') : p.Grew p'' :=
  ⟨h.toKeeps.trans h'.toKeeps, h'.table.trans h.table, h.pipe.trans h'.pipe⟩

/-- More in the pipe, and nothing else. -/
theorem grew_pipe (p : Forwarding) (more : List Written) :
    p.Grew { p with pipe := p.pipe ++ more } :=
  ⟨⟨rfl, rfl, rfl⟩, rfl, List.prefix_append p.pipe more⟩

theorem arrive_grew (p : Forwarding) (arrival : Signal × Bool) : p.Grew (p.arrive arrival) := by
  unfold arrive signalHandler
  split
  · split
    · exact p.grew_pipe _
    · exact .refl p
  · exact .refl p

theorem arrivals_grew : ∀ (arrivals : List (Signal × Bool)) (p : Forwarding),
    p.Grew (arrivals.foldl arrive p)
  | [], p => .refl p
  | a :: arrivals, p => (p.arrive_grew a).trans (arrivals_grew arrivals (p.arrive a))

/-- The byte of a handler that could write it is in the pipe. -/
theorem arrivals_written {sig : Signal} {arrivals : List (Signal × Bool)} {p : Forwarding}
    (hmem : (sig, true) ∈ arrivals) (hsig : sig ∈ p.handled) (hfd : 0 ≤ p.signalWriteFd) :
    (arrivals.foldl arrive p).pipe ≠ [] := by
  induction arrivals generalizing p with
  | nil => cases hmem
  | cons a arrivals ih =>
    rcases List.mem_cons.mp hmem with rfl | hmem
    · -- it is written at once, and what follows only adds to it
      have harrive : p.arrive (sig, true) = { p with pipe := p.pipe ++ [.signal sig] } := by
        rw [arrive, if_pos hsig, signalHandler, if_pos ⟨hfd, rfl⟩]
      obtain ⟨more, hmore⟩ := (arrivals_grew arrivals (p.arrive (sig, true))).pipe
      rw [harrive] at hmore
      rw [List.foldl_cons, harrive, ← hmore]
      simp
    · have hkept := (p.arrive_grew a).toKeeps
      rw [← hkept.handled] at hsig
      rw [← hkept.signalWriteFd] at hfd
      exact ih hmem hsig hfd

theorem Grew.fileAt {p p' : Forwarding} (h : p.Grew p') (fd : Int) :
    p'.fileAt fd = p.fileAt fd := by
  unfold Forwarding.fileAt
  rw [h.table]

theorem Started.grew {opened : List Bool} {ready : Bool} {p p' : Forwarding}
    (h : p.Started opened ready) (hg : p.Grew p') : p'.Started opened ready := by
  refine ⟨?_, ?_, ?_, ?_, ?_, ?_, ?_⟩
  · rw [hg.signalPipe, hg.fileAt]
    exact h.pipeEnd
  · rw [hg.signalPipe]
    exact h.bound
  · rw [hg.handled, hg.signalPipe, hg.signalWriteFd]
    exact h.forwards
  · rw [hg.fileAt]
    exact h.apart
  · rw [hg.fileAt]
    exact h.closed
  · rw [hg.fileAt]
    exact h.aliased
  · rw [hg.fileAt]
    exact h.stderr

/-- No call touches the statics. -/
theorem after_keeps (p : Forwarding) (e : Event) : p.Keeps (p.after e) := by
  obtain ⟨⟨caller, call⟩, ans⟩ := e
  cases call <;> first
    | exact ⟨rfl, rfl, rfl⟩
    | (dsimp only [after]; split <;> exact ⟨rfl, rfl, rfl⟩)
    | cases ans <;> first
      | exact ⟨rfl, rfl, rfl⟩
      | (dsimp only [after]; split <;> exact ⟨rfl, rfl, rfl⟩)

end Forwarding

/-- Calls that neither open nor close a descriptor nor read. -/
def Call.quiet : Call → Bool
  | .kqueue | .close _ | .readSignalPipe _ | .readStdin => false
  | _ => true

/-- All that such a call may do is add a line to the pipe. -/
theorem Forwarding.after_quiet (p : Forwarding) {e : Event} (h : e.req.call.quiet = true) :
    p.Grew (p.after e) := by
  obtain ⟨⟨caller, call⟩, ans⟩ := e
  cases call with
  | eprintln line =>
    dsimp only [after]
    split
    · exact p.grew_pipe _
    · exact .refl p
  | _ => first | exact .refl p | cases h

section run
variable {start : Forwarding} {arrivals : Trace → List (Signal × Bool)} {e : Event} {l : Trace}

variable (start arrivals) in
theorem forwardingAt_cons (e : Event) (l : Trace) : ((forwardingAt start arrivals l).after e).Grew
    (forwardingAt start arrivals (e :: l)) := Forwarding.arrivals_grew _ _

theorem forwardingAt_quiet (h : e.req.call.quiet = true) :
    (forwardingAt start arrivals l).Grew (forwardingAt start arrivals (e :: l)) :=
  (Forwarding.after_quiet _ h).trans (forwardingAt_cons start arrivals e l)

/-- The statics and the handlers are those the wait began with. -/
theorem forwardingAt_keeps : ∀ l : Trace, start.Keeps (forwardingAt start arrivals l)
  | [] => (Forwarding.arrivals_grew (arrivals []) start).toKeeps
  | e :: l => ((forwardingAt_keeps l).trans (Forwarding.after_keeps _ e)).trans
      (forwardingAt_cons start arrivals e l).toKeeps

/-- A handled signal whose byte was written has left something in the pipe. -/
theorem forwardingAt_arrived {sig : Signal} (hmem : (sig, true) ∈ arrivals l)
    (hsig : sig ∈ start.handled) (hfd : 0 ≤ start.signalWriteFd) :
    (forwardingAt start arrivals l).pipe ≠ [] := by
  cases l with
  | nil => exact Forwarding.arrivals_written hmem hsig hfd
  | cons e l =>
    have hkept := (@forwardingAt_keeps start arrivals l).trans (Forwarding.after_keeps _ e)
    rw [← hkept.handled] at hsig
    rw [← hkept.signalWriteFd] at hfd
    exact Forwarding.arrivals_written hmem hsig hfd

end run

/-! ## Lines for stderr -/

namespace Forwarding

/-- Descriptor 2 is not the pipe's, and no line is in the pipe. -/
structure Textless (p : Forwarding) : Prop where
  stderr : p.fileAt 2 ≠ some .signalWrite
  pipe : ∀ w ∈ p.pipe, w.isText = false

theorem Textless.arrive {p : Forwarding} (h : p.Textless) (arrival : Signal × Bool) :
    (p.arrive arrival).Textless := by
  refine ⟨by rw [(p.arrive_grew arrival).fileAt]; exact h.stderr, ?_⟩
  unfold Forwarding.arrive signalHandler
  split
  · split
    · intro w hw
      rcases List.mem_append.mp hw with hw | hw
      · exact h.pipe w hw
      · rw [List.mem_singleton.mp hw]
        rfl
    · exact h.pipe
  · exact h.pipe

theorem Textless.arrivals {p : Forwarding} (h : p.Textless) (arrivals : List (Signal × Bool)) :
    (arrivals.foldl Forwarding.arrive p).Textless := by
  induction arrivals generalizing p with
  | nil => exact h
  | cons a arrivals ih => exact ih (h.arrive a)

/-- A call that does not open, close, read or print leaves it so, and so do those. -/
theorem Textless.after {p : Forwarding} (h : p.Textless) (e : Event) : (p.after e).Textless := by
  obtain ⟨⟨caller, call⟩, ans⟩ := e
  cases call with
  | kqueue =>
    cases ans with
    | error errno => exact h
    | ok kq => exact ⟨FdTable.file_install_ne (by decide) h.stderr, h.pipe⟩
  | close fd =>
    dsimp only [Forwarding.after]
    split
    · refine ⟨?_, h.pipe⟩
      show FdTable.file (FdTable.release p.table fd.toNat) 2 ≠ some .signalWrite
      rw [FdTable.file_release]
      split
      · exact nofun
      · exact h.stderr
    · exact h
  | readSignalPipe fd =>
    cases ans with
    | none => exact h
    | some b =>
      dsimp only [Forwarding.after]
      split
      · exact ⟨h.stderr, fun w hw => h.pipe w (List.mem_of_mem_tail hw)⟩
      · exact h
  | readStdin =>
    dsimp only [Forwarding.after]
    split
    · exact ⟨h.stderr, fun w hw => h.pipe w (List.mem_of_mem_drop hw)⟩
    · exact h
  | eprintln line =>
    -- the line goes elsewhere
    show (if _ then _ else p : Forwarding).Textless
    rw [if_neg h.stderr]
    exact h
  | _ => exact h

theorem Textless.at {start : Forwarding} {arrivals : Trace → List (Signal × Bool)}
    (h : start.Textless) : ∀ l : Trace, (forwardingAt start arrivals l).Textless
  | [] => h.arrivals (arrivals [])
  | e :: l => ((Textless.at h l).after e).arrivals (arrivals (e :: l))

end Forwarding

/-- Then no report of the pipe finds a line. -/
theorem textReported_never {P : Trace → Forwarding} (h : ∀ l, (P l).Textless) (l : Trace) :
    ¬ Ever (TextReported P) l := by
  refine Ever.not_iff.mpr (Always.of_forall (fun e l' htext => ?_) l)
  have hany := htext.2
  cases hhead : (P l').pipe.head? with
  | none =>
    rw [hhead] at hany
    cases hany
  | some w =>
    have hw := (h l').pipe w (List.mem_of_mem_head? hhead)
    rw [hhead, Option.any_some, hw] at hany
    cases hany

end Procguard
