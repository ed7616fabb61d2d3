import Procguard.Descriptors
import Procguard.Interrupts

/- `setup_signal_forwarding`, `cleanup_signal_forwarding` and `signal_handler` (runner.rs),
   statement by statement: every system call and every access to one of the two statics is
   a request of its own, and a handled signal may come in between any two of them. A pipe
   is known by its number, so that a descriptor that was closed and opened again is not
   taken for what it was. The descriptors are those of the process, whatever it has open. -/
namespace Procguard
namespace SignalPipe
open Interact

/-! ## The process -/

/-- What a descriptor refers to: something else, or an end of a pipe of the set-up. -/
inductive File where
  | other
  | readEnd (pipe : Nat)
  | writeEnd (pipe : Nat)
  deriving DecidableEq

/-- The descriptors, the pipes made so far, the two statics, and the signals that have
the handler. -/
structure Proc where
  table : FdTable.Table File
  pipes : Nat := 0
  signalPipe : Int := -1
  signalWriteFd : Int := -1
  handled : List Signal := []

def Proc.fileAt (p : Proc) (fd : Int) : Option File :=
  if 0 ≤ fd then FdTable.file p.table fd.toNat else none

/-- The process as it is started, with these descriptors open. -/
def start (opened : List Bool) : Proc where
  table := opened.map fun o => if o then some .other else none

inductive Disposition where
  | handler
  | default

inductive FcntlCmd where
  | getfl
  | setfl (flags : Int32)
  | setfd (flags : Int32)

def O_NONBLOCK : Int32 := 4
def FD_CLOEXEC : Int32 := 1

inductive PipeCall where
  | pipe
  | fcntl (fd : Int) (cmd : FcntlCmd)
  | close (fd : Int)
  | compareExchangeSignalPipe (current new : Int)
  | loadSignalPipe
  | swapSignalPipe (fd : Int)
  | storeSignalWriteFd (fd : Int)
  | loadSignalWriteFd
  | swapSignalWriteFd (fd : Int)
  | sigaction (sig : Signal) (disposition : Disposition)
  | write (fd : Int) (byte : UInt8)

@[reducible] def PipeCall.Ans : PipeCall → Type
  | .pipe => Option (Int × Int)
  | .fcntl _ _ => Int32
  | .close _ => Unit
  | .compareExchangeSignalPipe _ _ => Except Int Int
  | .loadSignalPipe => Int
  | .swapSignalPipe _ => Int
  | .storeSignalWriteFd _ => Unit
  | .loadSignalWriteFd => Int
  | .swapSignalWriteFd _ => Int
  | .sigaction _ _ => Unit
  | .write _ _ => Int32

abbrev PipeLog := Log PipeCall.Ans
abbrev PipeProg (α : Type) := Prog PipeCall.Ans α

abbrev request (q : PipeCall) : PipeProg q.Ans := Prog.request (A := PipeCall.Ans) q

def Proc.close (p : Proc) (fd : Int) : Proc :=
  if 0 ≤ fd then { p with table := FdTable.release p.table fd.toNat } else p

def Proc.sigaction (p : Proc) (sig : Signal) : Disposition → Proc
  | .handler => { p with handled := p.handled.filter (· ≠ sig) ++ [sig] }
  | .default => { p with handled := p.handled.filter (· ≠ sig) }

/-- What a request is answered, and the process after it. `luck` is what `fcntl` and
`write` return, and with a negative one `pipe` fails, as it does without room. -/
def answer : (q : PipeCall) → Int32 → Proc → q.Ans × Proc
  | .pipe, luck, p =>
    if luck < 0 then (none, p)
    else match FdTable.allocatePair p.table (.readEnd p.pipes) (.writeEnd p.pipes) with
      | none => (none, p)
      | some (readFd, writeFd, table) =>
        (some (readFd, writeFd), { p with table := table, pipes := p.pipes + 1 })
  | .fcntl _ _, luck, p => (luck, p)
  | .close fd, _, p => ((), p.close fd)
  | .compareExchangeSignalPipe current new, _, p =>
    if p.signalPipe = current then (.ok current, { p with signalPipe := new })
    else (.error p.signalPipe, p)
  | .loadSignalPipe, _, p => (p.signalPipe, p)
  | .swapSignalPipe fd, _, p => (p.signalPipe, { p with signalPipe := fd })
  | .storeSignalWriteFd fd, _, p => ((), { p with signalWriteFd := fd })
  | .loadSignalWriteFd, _, p => (p.signalWriteFd, p)
  | .swapSignalWriteFd fd, _, p => (p.signalWriteFd, { p with signalWriteFd := fd })
  | .sigaction sig disposition, _, p => ((), p.sigaction sig disposition)
  | .write _ _, luck, p => (luck, p)

/-! ## The three functions -/

/-- Make a descriptor non-blocking. -/
def nonBlocking (fd : Int) : PipeProg Bool := do
  let flags ← request (.fcntl fd .getfl)
  if flags < 0 then pure false
  else do
    let r ← request (.fcntl fd (.setfl (flags ||| O_NONBLOCK)))
    pure !(decide (r < 0))

def closeBoth (readFd writeFd : Int) : PipeProg Unit := do
  request (.close readFd)
  request (.close writeFd)

def sigactions (disposition : Disposition) : List Signal → PipeProg Unit
  | [] => pure ()
  | sig :: rest => do
    request (.sigaction sig disposition)
    sigactions disposition rest

def setupSignalForwarding : PipeProg (Option Int) := do
  match ← request .pipe with
  | none => pure none
  | some (readFd, writeFd) =>
    if !(← nonBlocking readFd) then do
      closeBoth readFd writeFd
      pure none
    else if !(← nonBlocking writeFd) then do
      closeBoth readFd writeFd
      pure none
    else do
      let _ ← request (.fcntl readFd (.setfd FD_CLOEXEC))
      let _ ← request (.fcntl writeFd (.setfd FD_CLOEXEC))
      match ← request (.compareExchangeSignalPipe (-1) readFd) with
      | .error _ => do
        -- already set: the new pipe is closed again
        closeBoth readFd writeFd
        let existing ← request .loadSignalPipe
        pure (if 0 ≤ existing then some existing else none)
      | .ok _ => do
        request (.storeSignalWriteFd writeFd)
        sigactions .handler forwardedSignals
        pure (some readFd)

def closeOpened (fd : Int) : PipeProg Unit :=
  if 0 ≤ fd then request (.close fd) else pure ()

def cleanupSignalForwarding : PipeProg Unit := do
  sigactions .default forwardedSignals
  let writeFd ← request (.swapSignalWriteFd (-1))
  closeOpened writeFd
  let readFd ← request (.swapSignalPipe (-1))
  closeOpened readFd

def signalHandler (sig : Signal) : PipeProg Unit := do
  let fd ← request .loadSignalWriteFd
  if 0 ≤ fd then do
    let _ ← request (.write fd (signalByte sig))
    pure ()
  else pure ()

inductive Call where
  | setup
  | cleanup

@[reducible] def Call.Result : Call → Type
  | .setup => Option Int
  | .cleanup => Unit

def machine : Interact.Machine PipeCall.Ans Int32 Proc Signal Call.Result where
  answer := answer
  enabled sig p := decide (sig ∈ p.handled)
  handler := signalHandler
  program
    | .setup => setupSignalForwarding
    | .cleanup => cleanupSignalForwarding

/-! ## What holds of the process -/

def File.IsEnd : Option File → Prop
  | some (.readEnd _) | some (.writeEnd _) => True
  | _ => False

namespace Proc
variable {p p' : Proc} {readFd writeFd : Nat} {fd : Int}

/-- The statics are the two ends of pipe `n`, and no other end of a pipe is open. -/
structure Holds (p : Proc) (readFd writeFd n : Nat) : Prop where
  signalPipe : p.signalPipe = readFd
  signalWriteFd : p.signalWriteFd = writeFd
  readEnd : p.fileAt readFd = some (.readEnd n)
  writeEnd : p.fileAt writeFd = some (.writeEnd n)
  only : ∀ fd, File.IsEnd (p.fileAt fd) → fd = readFd ∨ fd = writeFd

/-- The statics are unset and no end of a pipe is open. -/
structure Closed (p : Proc) : Prop where
  signalPipe : p.signalPipe = -1
  signalWriteFd : p.signalWriteFd = -1
  none_open : ∀ fd, ¬ File.IsEnd (p.fileAt fd)

/-- The descriptor is the write end of the pipe whose read end is `SIGNAL_PIPE`. -/
def CurrentWriteEnd (p : Proc) (fd : Int) : Prop :=
  fd = p.signalWriteFd ∧ ∃ n, p.fileAt p.signalPipe = some (.readEnd n) ∧
    p.fileAt fd = some (.writeEnd n)

/-- A signal that has the handler finds the write end. -/
def Ready (p : Proc) : Prop := p.handled = [] ∨ p.CurrentWriteEnd p.signalWriteFd

/-- Between two calls: a pipe, or none and no handler. -/
def Between (p : Proc) : Prop :=
  p.Closed ∧ p.handled = [] ∨
    (∃ readFd writeFd n, p.Holds readFd writeFd n) ∧ ∀ sig ∈ p.handled, sig ∈ forwardedSignals

/-- The same statics, the same handlers and the same open descriptors. -/
structure Same (p p' : Proc) : Prop where
  signalPipe : p'.signalPipe = p.signalPipe
  signalWriteFd : p'.signalWriteFd = p.signalWriteFd
  handled : p'.handled = p.handled
  fileAt : ∀ fd, p'.fileAt fd = p.fileAt fd

/-- `p'` is `p` but for two descriptors that are free in `p`. -/
structure Beside (p p' : Proc) (readFd writeFd : Nat) : Prop where
  signalPipe : p'.signalPipe = p.signalPipe
  signalWriteFd : p'.signalWriteFd = p.signalWriteFd
  handled : p'.handled = p.handled
  free_read : p.fileAt readFd = none
  free_write : p.fileAt writeFd = none
  fileAt : ∀ fd : Int, fd ≠ readFd → fd ≠ writeFd → p'.fileAt fd = p.fileAt fd

theorem Holds.currentWriteEnd {n : Nat} (h : p.Holds readFd writeFd n) :
    p.CurrentWriteEnd p.signalWriteFd := by
  refine ⟨rfl, n, ?_, ?_⟩
  · rw [h.signalPipe]
    exact h.readEnd
  · rw [h.signalWriteFd]
    exact h.writeEnd

theorem Between.ready (h : p.Between) : p.Ready := by
  rcases h with ⟨-, hnone⟩ | ⟨⟨readFd, writeFd, n, hholds⟩, -⟩
  · exact Or.inl hnone
  · exact Or.inr hholds.currentWriteEnd

theorem fileAt_close (p : Proc) (closed fd : Int) :
    (p.close closed).fileAt fd = if fd = closed then none else p.fileAt fd := by
  unfold Proc.close Proc.fileAt
  by_cases hc : 0 ≤ closed
  · rw [if_pos hc]
    by_cases hfd : 0 ≤ fd
    · rw [if_pos hfd, if_pos hfd, FdTable.file_release]
      by_cases heq : fd = closed
      · rw [if_pos heq, if_pos (by rw [heq])]
      · rw [if_neg heq, if_neg (by omega)]
    · rw [if_neg hfd, if_neg hfd, ite_self]
  · rw [if_neg hc]
    by_cases heq : fd = closed
    · rw [if_pos heq, heq, if_neg hc]
    · rw [if_neg heq]

@[simp] theorem close_signalPipe : (p.close fd).signalPipe = p.signalPipe := by
  unfold Proc.close
  split <;> rfl

@[simp] theorem close_signalWriteFd : (p.close fd).signalWriteFd = p.signalWriteFd := by
  unfold Proc.close
  split <;> rfl

@[simp] theorem close_handled : (p.close fd).handled = p.handled := by
  unfold Proc.close
  split <;> rfl

/-- Opening or closing what the statics do not name leaves the handler what it writes to. -/
theorem Ready.beside (hr : p.Ready) (hb : p.Beside p' readFd writeFd) : p'.Ready := by
  rcases hr with hnone | ⟨-, n, hread, hwrite⟩
  · exact Or.inl (hb.handled.trans hnone)
  · have hkept : ∀ {fd : Int} {f : File}, p.fileAt fd = some f → p'.fileAt fd = some f := by
      intro fd f hf
      rw [hb.fileAt fd, hf]
      · intro hfd
        rw [hfd, hb.free_read] at hf
        cases hf
      · intro hfd
        rw [hfd, hb.free_write] at hf
        cases hf
    refine Or.inr ⟨rfl, n, ?_, ?_⟩
    · rw [hb.signalPipe]
      exact hkept hread
    · rw [hb.signalWriteFd]
      exact hkept hwrite

theorem Beside.close (hb : p.Beside p' readFd writeFd) (hfd : fd = readFd ∨ fd = writeFd) :
    p.Beside (p'.close fd) readFd writeFd := by
  refine ⟨?_, ?_, ?_, hb.free_read, hb.free_write, ?_⟩
  · rw [close_signalPipe, hb.signalPipe]
  · rw [close_signalWriteFd, hb.signalWriteFd]
  · rw [close_handled, hb.handled]
  · intro fd' hr hw
    rw [fileAt_close, hb.fileAt fd' hr hw, if_neg]
    intro heq
    rcases hfd with hfd | hfd
    · exact hr (heq.trans hfd)
    · exact hw (heq.trans hfd)

/-- The pipe is closed again, and everything is as it was. -/
theorem Beside.same (hb : p.Beside p' readFd writeFd) :
    p.Same ((p'.close readFd).close writeFd) := by
  have hclosed := (hb.close (Or.inl rfl)).close (Or.inr rfl)
  refine ⟨hclosed.signalPipe, hclosed.signalWriteFd, hclosed.handled, fun fd => ?_⟩
  by_cases hw : fd = writeFd
  · rw [fileAt_close, if_pos hw, hw, hb.free_write]
  · by_cases hr : fd = readFd
    · rw [fileAt_close, if_neg hw, fileAt_close, if_pos hr, hr, hb.free_read]
    · exact hclosed.fileAt fd hr hw

theorem Same.between (hs : p.Same p') (h : p.Between) : p'.Between := by
  rcases h with ⟨hclosed, hnone⟩ | ⟨⟨readFd, writeFd, n, hholds⟩, hsigs⟩
  · refine Or.inl ⟨⟨hs.signalPipe.trans hclosed.signalPipe,
      hs.signalWriteFd.trans hclosed.signalWriteFd, fun fd => ?_⟩, hs.handled.trans hnone⟩
    rw [hs.fileAt]
    exact hclosed.none_open fd
  · refine Or.inr ⟨⟨readFd, writeFd, n, hs.signalPipe.trans hholds.signalPipe,
      hs.signalWriteFd.trans hholds.signalWriteFd, ?_, ?_, fun fd hend => ?_⟩, ?_⟩
    · rw [hs.fileAt]
      exact hholds.readEnd
    · rw [hs.fileAt]
      exact hholds.writeEnd
    · rw [hs.fileAt] at hend
      exact hholds.only fd hend
    · rw [hs.handled]
      exact hsigs

end Proc

/-! ## The contracts -/

/-- What a request of the handler has to meet: it writes to the write end of the pipe. -/
def Safe : PipeCall → Proc → Prop
  | .write fd _, p => p.CurrentWriteEnd fd
  | _, _ => True

/-- The answer makes `setup` give up. -/
def fails : Ev PipeCall.Ans → Bool
  | ⟨.pipe, none⟩ => true
  | ⟨.fcntl _ .getfl, flags⟩ => decide (flags < 0)
  | ⟨.fcntl _ (.setfl _), r⟩ => decide (r < 0)
  | _ => false

def failed (l : PipeLog) : Bool := l.any fails

/-- What `setup` promises, begun in `p`: nothing changes if it fails, or if there is a pipe
already, and otherwise there is one. -/
structure SetupPost (p : Proc) (r : Option Int) (l : PipeLog) (p' : Proc) : Prop where
  gaveUp : failed l = true → r = none ∧ p.Same p'
  opened : failed l = false → p.Closed →
    ∃ readFd writeFd n, p'.Holds readFd writeFd n ∧ r = some (readFd : Int)
  existing : failed l = false → ∀ readFd writeFd n, p.Holds readFd writeFd n →
    r = some (readFd : Int) ∧ p.Same p'

def Post : (x : Call) → Proc → x.Result → PipeLog → Proc → Prop
  | .setup, p, r, l, p' => SetupPost p r l p'
  | .cleanup, _, _, _, p' => p'.Closed

section contracts
variable {p p' : Proc} {l : PipeLog} {readFd writeFd : Nat} {α : Type}

/-- Where the write end is ready, every handler may run. -/
theorem Proc.Ready.steady (h : p.Ready) : machine.Steady Safe p := by
  intro sig hsig
  rcases h with hnone | hcurrent
  · have hmem : sig ∈ p.handled := of_decide_eq_true hsig
    rw [hnone] at hmem
    cases hmem
  · refine ⟨trivial, fun _ => ⟨rfl, ?_⟩⟩
    change machine.Observes Safe p (if 0 ≤ p.signalWriteFd then _ else _)
    split
    · exact ⟨hcurrent, fun _ => ⟨rfl, trivial⟩⟩
    · trivial

/-- A request that leaves the process as it is. -/
theorem look_meets {q : PipeCall} {P : q.Ans → PipeLog → Proc → Prop} (hr : p.Ready)
    (hsame : ∀ luck, (answer q luck p).2 = p)
    (h : ∀ luck, P (answer q luck p).1 (⟨q, (answer q luck p).1⟩ :: l) p) :
    machine.Meets Safe P (request q) l p := by
  refine Machine.meets_request hr.steady fun luck => ?_
  change machine.Steady Safe (answer q luck p).2 ∧ P _ _ (answer q luck p).2
  rw [hsame luck]
  exact ⟨hr.steady, h luck⟩

/-- A request that changes the process in one way only. -/
theorem change_meets {q : PipeCall} {P : q.Ans → PipeLog → Proc → Prop} {a : q.Ans} (hr : p.Ready)
    (hanswer : ∀ luck, answer q luck p = (a, p')) (hr' : p'.Ready) (h : P a (⟨q, a⟩ :: l) p') :
    machine.Meets Safe P (request q) l p := by
  refine Machine.meets_request hr.steady fun luck => ?_
  change machine.Steady Safe (answer q luck p).2 ∧
    P (answer q luck p).1 (⟨q, (answer q luck p).1⟩ :: l) (answer q luck p).2
  rw [hanswer luck]
  exact ⟨hr'.steady, h⟩

theorem failed_cons (e : Ev PipeCall.Ans) (l : PipeLog) : failed (e :: l) = (fails e || failed l) :=
  rfl

/-- A descriptor that cannot be made non-blocking is a failure, and the only one. -/
theorem nonBlocking_meets {P : Bool → PipeLog → Proc → Prop} {fd : Int} (hr : p.Ready)
    (h : ∀ b l', failed l' = (!b || failed l) → P b l' p) :
    machine.Meets Safe P (nonBlocking fd) l p := by
  refine Machine.meets_bind.mpr (look_meets hr (fun _ => rfl) fun flags => ?_)
  change machine.Meets Safe P (if flags < 0 then _ else _) _ p
  split
  next hneg =>
    refine Machine.meets_done.mpr ⟨hr.steady, h false _ ?_⟩
    rw [failed_cons]
    change (decide (flags < 0) || failed l) = _
    rw [decide_eq_true hneg]
    rfl
  next hneg =>
    refine Machine.meets_bind.mpr (look_meets hr (fun _ => rfl) fun r => ?_)
    refine Machine.meets_done.mpr ⟨hr.steady, h _ _ ?_⟩
    rw [failed_cons, failed_cons]
    change (decide (r < 0) || (decide (flags < 0) || failed l)) = (!(!decide (r < 0)) || failed l)
    rw [decide_eq_false hneg, Bool.not_not, Bool.false_or]

/-- Closing both ends of a pipe that was opened beside what there was. -/
theorem closeBoth_meets {P : Unit → PipeLog → Proc → Prop} (hr : p.Ready)
    (hb : p.Beside p' readFd writeFd)
    (h : ∀ l' p'', failed l' = failed l → p.Same p'' → P () l' p'') :
    machine.Meets Safe P (closeBoth readFd writeFd) l p' := by
  have hb₁ := hb.close (Or.inl rfl)
  have hb₂ := hb₁.close (Or.inr rfl)
  refine Machine.meets_bind.mpr
    (change_meets (q := .close readFd) (hr.beside hb) (fun _ => rfl) (hr.beside hb₁) ?_)
  refine change_meets (q := .close writeFd) (hr.beside hb₁) (fun _ => rfl) (hr.beside hb₂) ?_
  exact h _ _ rfl hb.same

/-- Setting one disposition after the other. -/
theorem sigactions_meets {d : Disposition} {P : Unit → PipeLog → Proc → Prop} {sigs : List Signal}
    (J : Proc → Prop) (hready : ∀ p, J p → p.Ready)
    (hstep : ∀ p, ∀ sig ∈ sigs, J p → J (p.sigaction sig d)) (hJ : J p)
    (h : ∀ l', failed l' = failed l → J (sigs.foldl (Proc.sigaction · · d) p) →
      P () l' (sigs.foldl (Proc.sigaction · · d) p)) :
    machine.Meets Safe P (sigactions d sigs) l p := by
  induction sigs generalizing l p with
  | nil => exact ⟨(hready p hJ).steady, h l rfl hJ⟩
  | cons sig rest ih =>
    have hJ' := hstep p sig (List.mem_cons_self ..) hJ
    refine Machine.meets_bind.mpr
      (change_meets (q := .sigaction sig d) (hready p hJ) (fun _ => rfl) (hready _ hJ') ?_)
    apply ih (fun p sig' hsig' => hstep p sig' (List.mem_cons_of_mem sig hsig')) hJ'
    intro l' hl'
    exact h l' hl'

/-- `p'` is `p` with one more pipe. -/
structure Opened (p p' : Proc) (readFd writeFd : Nat) : Prop where
  beside : p.Beside p' readFd writeFd
  readEnd : p'.fileAt readFd = some (.readEnd p.pipes)
  writeEnd : p'.fileAt writeFd = some (.writeEnd p.pipes)

theorem opened_of_allocatePair {t : FdTable.Table File}
    (h : FdTable.allocatePair p.table (.readEnd p.pipes) (.writeEnd p.pipes) =
      some (readFd, writeFd, t)) :
    Opened p { p with table := t, pipes := p.pipes + 1 } readFd writeFd := by
  obtain ⟨-, hread, hwrite, hne, hfile⟩ := FdTable.allocatePair_eq_some h
  have hat : ∀ (q : Proc) (fd : Nat), q.fileAt fd = FdTable.file q.table fd := by
    intro q fd
    rw [Proc.fileAt, if_pos (Int.natCast_nonneg fd)]
    rfl
  refine ⟨⟨rfl, rfl, rfl, (hat _ _).trans hread, (hat _ _).trans hwrite, ?_⟩, ?_, ?_⟩
  · intro fd hr hw
    unfold Proc.fileAt
    split
    next hfd =>
      rw [hfile, if_neg (by omega), if_neg (by omega)]
    next => rfl
  · rw [hat, hfile, if_neg hne, if_pos rfl]
  · rw [hat, hfile, if_pos rfl]

/-- `pipe` fails, or opens a pipe. -/
theorem pipe_meets {P : Option (Int × Int) → PipeLog → Proc → Prop} (hr : p.Ready)
    (hnone : P none (⟨.pipe, none⟩ :: l) p)
    (hsome : ∀ (readFd writeFd : Nat) p', Opened p p' readFd writeFd →
      P (some (readFd, writeFd)) (⟨.pipe, some (readFd, writeFd)⟩ :: l) p') :
    machine.Meets Safe P (request .pipe) l p := by
  refine Machine.meets_request hr.steady fun luck => ?_
  change machine.Steady Safe (answer .pipe luck p).2 ∧
    P (answer .pipe luck p).1 (⟨.pipe, (answer .pipe luck p).1⟩ :: l) (answer .pipe luck p).2
  by_cases hluck : luck < 0
  · rw [answer, if_pos hluck]
    exact ⟨hr.steady, hnone⟩
  · rw [answer, if_neg hluck]
    cases hpair : FdTable.allocatePair p.table (.readEnd p.pipes) (.writeEnd p.pipes) with
    | none => exact ⟨hr.steady, hnone⟩
    | some ends =>
      obtain ⟨readFd, writeFd, t⟩ := ends
      have hopened := opened_of_allocatePair hpair
      exact ⟨(hr.beside hopened.beside).steady, hsome readFd writeFd _ hopened⟩

/-- What a call of `setup` that began in `p` owes at its end. -/
def SetupDone (p : Proc) (r : Option Int) (l : PipeLog) (p' : Proc) : Prop :=
  p'.Between ∧ SetupPost p r l p'

/-- A failure: nothing is left of it. -/
theorem setupDone_failed (hb : p.Between) (hsame : p.Same p') (hf : failed l = true) :
    SetupDone p none l p' := by
  refine ⟨hsame.between hb, fun _ => ⟨rfl, hsame⟩, fun h => ?_, fun h => ?_⟩
  all_goals
    rw [hf] at h
    cases h

/-- The re-entry exit: the new pipe is closed, and the one there is is returned. -/
theorem setupDone_existing {n : Nat} (hb : p.Between) (hh : p.Holds readFd writeFd n)
    (hsame : p.Same p') (hf : failed l = false) : SetupDone p (some (readFd : Int)) l p' := by
  refine ⟨hsame.between hb, fun h => ?_, fun _ hclosed => ?_, fun _ r w m hh' => ?_⟩
  · rw [hf] at h
    cases h
  · have hpipe := hclosed.signalPipe.symm.trans hh.signalPipe
    omega
  · exact ⟨congrArg some (hh.signalPipe.symm.trans hh'.signalPipe), hsame⟩

/-- The set-up that made a pipe. -/
theorem setupDone_opened {n : Nat} (hclosed : p.Closed) (hb : p'.Between)
    (hh : p'.Holds readFd writeFd n) (hf : failed l = false) :
    SetupDone p (some (readFd : Int)) l p' := by
  refine ⟨hb, fun h => ?_, fun _ _ => ⟨readFd, writeFd, n, hh, rfl⟩, fun _ r w m hh' => ?_⟩
  · rw [hf] at h
    cases h
  · have hpipe := hclosed.signalPipe.symm.trans hh'.signalPipe
    omega

theorem giveUp_meets (hb : p.Between) (hbeside : p.Beside p' readFd writeFd)
    (hf : failed l = true) :
    machine.Meets Safe (SetupDone p)
      (do closeBoth readFd writeFd; pure none) l p' := by
  refine Machine.meets_bind.mpr (closeBoth_meets hb.ready hbeside fun l' p'' hl' hsame => ?_)
  refine Machine.meets_done.mpr ⟨(hsame.between hb).ready.steady, ?_⟩
  exact setupDone_failed hb hsame (hl'.trans hf)

/-- The handlers are installed once the statics hold the pipe. -/
theorem install_meets {n : Nat} {P : Unit → PipeLog → Proc → Prop} (hh : p.Holds readFd writeFd n)
    (hnone : p.handled = [])
    (h : ∀ l' p', failed l' = failed l → p'.Between → p'.Holds readFd writeFd n → P () l' p') :
    machine.Meets Safe P (sigactions .handler forwardedSignals) l p := by
  apply sigactions_meets fun q => q.Holds readFd writeFd n ∧ ∀ sig ∈ q.handled, sig ∈ forwardedSignals
  · intro q hq
    exact Or.inr hq.1.currentWriteEnd
  · intro q sig hsig hq
    refine ⟨⟨hq.1.signalPipe, hq.1.signalWriteFd, hq.1.readEnd, hq.1.writeEnd, hq.1.only⟩, ?_⟩
    intro sig' hmem
    rcases List.mem_append.mp hmem with hold | hnew
    · exact hq.2 sig' (List.mem_filter.mp hold).1
    · rw [List.mem_singleton.mp hnew]
      exact hsig
  · refine ⟨hh, ?_⟩
    rw [hnone]
    exact List.forall_mem_nil _
  · intro l' hl' hq
    exact h l' _ hl' (Or.inr ⟨⟨readFd, writeFd, n, hq.1⟩, hq.2⟩) hq.1

/-- The slot is free: the new pipe is put into the statics, its write end before any
handler is installed. -/
theorem claim_meets (hclosed : p.Closed) (hnone : p.handled = [])
    (hopened : Opened p p' readFd writeFd) (hf : failed l = false) :
    machine.Meets Safe (SetupDone p)
      (do
        request (.storeSignalWriteFd writeFd)
        sigactions .handler forwardedSignals
        pure (some (readFd : Int)))
      l { p' with signalPipe := readFd } := by
  have hnone' : p'.handled = [] := hopened.beside.handled.trans hnone
  have hholds : ({ p' with signalPipe := readFd, signalWriteFd := writeFd } : Proc).Holds
      readFd writeFd p.pipes := by
    refine ⟨rfl, rfl, hopened.readEnd, hopened.writeEnd, fun fd hend => ?_⟩
    by_contra hother
    obtain ⟨hr, hw⟩ := not_or.mp hother
    change File.IsEnd (p'.fileAt fd) at hend
    rw [hopened.beside.fileAt fd hr hw] at hend
    exact hclosed.none_open fd hend
  refine Machine.meets_bind.mpr (change_meets (q := .storeSignalWriteFd writeFd)
    (Or.inl hnone') (fun _ => rfl) (Or.inl hnone') ?_)
  refine Machine.meets_bind.mpr (install_meets hholds hnone' fun l' p'' hl' hb' hh' => ?_)
  refine Machine.meets_done.mpr ⟨hb'.ready.steady, ?_⟩
  exact setupDone_opened hclosed hb' hh' (hl'.trans hf)

/-- The slot is taken: the new pipe is closed, and the old one is returned. -/
theorem reenter_meets {n r w : Nat} (hb : p.Between) (hh : p.Holds r w n)
    (hbeside : p.Beside p' readFd writeFd) (hf : failed l = false) :
    machine.Meets Safe (SetupDone p)
      (do
        closeBoth readFd writeFd
        let existing ← request .loadSignalPipe
        pure (if 0 ≤ existing then some existing else none)) l p' := by
  refine Machine.meets_bind.mpr (closeBoth_meets hb.ready hbeside fun l' p'' hl' hsame => ?_)
  have hb' := hsame.between hb
  refine Machine.meets_bind.mpr (look_meets hb'.ready (fun _ => rfl) fun luck => ?_)
  refine Machine.meets_done.mpr ⟨hb'.ready.steady, ?_⟩
  have hpipe : (answer .loadSignalPipe luck p'').1 = (r : Int) :=
    hsame.signalPipe.trans hh.signalPipe
  rw [hpipe, if_pos (Int.natCast_nonneg r)]
  exact setupDone_existing hb hh hsame (hl'.trans hf)

/-- **The set-up keeps its contract**, whatever fails and whatever comes in. -/
theorem setup_meets (hb : p.Between) :
    machine.Meets Safe (SetupDone p) setupSignalForwarding [] p := by
  refine Machine.meets_bind.mpr (pipe_meets hb.ready ?_ ?_)
  · refine Machine.meets_done.mpr ⟨hb.ready.steady, ?_⟩
    exact setupDone_failed hb ⟨rfl, rfl, rfl, fun _ => rfl⟩ rfl
  · intro readFd writeFd p₁ hopened
    have hr : p₁.Ready := hb.ready.beside hopened.beside
    refine Machine.meets_bind.mpr (nonBlocking_meets hr fun b l hl => ?_)
    cases b with
    | false => exact giveUp_meets hb hopened.beside hl
    | true =>
      refine Machine.meets_bind.mpr (nonBlocking_meets hr fun b l' hl' => ?_)
      cases b with
      | false => exact giveUp_meets hb hopened.beside hl'
      | true =>
        refine Machine.meets_bind.mpr (look_meets hr (fun _ => rfl) fun _ => ?_)
        refine Machine.meets_bind.mpr (look_meets hr (fun _ => rfl) fun _ => ?_)
        have hf : failed l' = false := hl'.trans hl
        rcases id hb with ⟨hclosed, hnone⟩ | ⟨⟨r, w, n, hh⟩, -⟩
        · -- the slot is free
          have hfree : p₁.signalPipe = -1 := hopened.beside.signalPipe.trans hclosed.signalPipe
          have hnone₁ : p₁.handled = [] := hopened.beside.handled.trans hnone
          have hclaim : ∀ luck, answer (.compareExchangeSignalPipe (-1) readFd) luck p₁ =
              (.ok (-1), { p₁ with signalPipe := readFd }) := fun _ => if_pos hfree
          refine Machine.meets_bind.mpr (change_meets hr hclaim (Or.inl hnone₁) ?_)
          exact claim_meets hclosed hnone hopened hf
        · -- there is a pipe already
          have htaken : p₁.signalPipe ≠ -1 := by
            rw [hopened.beside.signalPipe, hh.signalPipe]
            omega
          have hlose : ∀ luck, answer (.compareExchangeSignalPipe (-1) readFd) luck p₁ =
              (.error p₁.signalPipe, p₁) := fun _ => if_neg htaken
          refine Machine.meets_bind.mpr (change_meets hr hlose hr ?_)
          exact reenter_meets hb hh hopened.beside hf

theorem mem_handled_default {sigs : List Signal} {sig : Signal}
    (h : sig ∈ (sigs.foldl (Proc.sigaction · · .default) p).handled) :
    sig ∈ p.handled ∧ sig ∉ sigs := by
  induction sigs generalizing p with
  | nil => exact ⟨h, List.not_mem_nil⟩
  | cons sig' rest ih =>
    obtain ⟨hmem, hrest⟩ := ih h
    obtain ⟨hold, hne⟩ := List.mem_filter.mp hmem
    have hne : sig ≠ sig' := of_decide_eq_true hne
    refine ⟨hold, fun hcons => ?_⟩
    rcases List.mem_cons.mp hcons with heq | hin
    · exact hne heq
    · exact hrest hin

/-- The handlers go before the descriptors they write to. -/
theorem uninstall_meets {P : Unit → PipeLog → Proc → Prop} (hb : p.Between)
    (h : ∀ l' p', p'.handled = [] → p'.table = p.table → p'.signalPipe = p.signalPipe →
      p'.signalWriteFd = p.signalWriteFd → P () l' p') :
    machine.Meets Safe P (sigactions .default forwardedSignals) l p := by
  apply sigactions_meets fun q => q.Ready ∧ q.table = p.table ∧ q.signalPipe = p.signalPipe ∧
    q.signalWriteFd = p.signalWriteFd
  · intro q hq
    exact hq.1
  · intro q sig hsig ⟨hready, htable, hpipe, hwrite⟩
    refine ⟨?_, htable, hpipe, hwrite⟩
    rcases hready with hnone | hcurrent
    · refine Or.inl ?_
      change q.handled.filter _ = []
      rw [hnone]
      rfl
    · exact Or.inr hcurrent
  · exact ⟨hb.ready, rfl, rfl, rfl⟩
  · intro l' hl' hq
    obtain ⟨-, htable, hpipe, hwrite⟩ := hq
    refine h l' _ ?_ htable hpipe hwrite
    apply List.eq_nil_iff_forall_not_mem.mpr
    intro sig hsig
    obtain ⟨hold, hnew⟩ := mem_handled_default hsig
    rcases hb with ⟨-, hnone⟩ | ⟨-, hsigs⟩
    · rw [hnone] at hold
      cases hold
    · exact hnew (hsigs sig hold)

theorem closeOpened_meets {P : Unit → PipeLog → Proc → Prop} {fd : Int} (hnone : p.handled = [])
    (h : ∀ l', P () l' (p.close fd)) : machine.Meets Safe P (closeOpened fd) l p := by
  have hnone' : (p.close fd).handled = [] := Proc.close_handled.trans hnone
  unfold closeOpened
  split
  next =>
    exact change_meets (q := .close fd) (Or.inl hnone) (fun _ => rfl) (Or.inl hnone') (h _)
  next hfd =>
    have hsame : p.close fd = p := if_neg hfd
    refine Machine.meets_done.mpr ⟨Proc.Ready.steady (Or.inl hnone), ?_⟩
    exact hsame ▸ h l

/-- What is open when the handlers are gone is closed. -/
theorem closed_of_between (hb : p.Between) {q : Proc} (hpipe : q.signalPipe = -1)
    (hwrite : q.signalWriteFd = -1)
    (hfile : ∀ fd, q.fileAt fd = if fd = p.signalPipe then none
      else if fd = p.signalWriteFd then none else p.fileAt fd) : q.Closed := by
  refine ⟨hpipe, hwrite, fun fd hend => ?_⟩
  rw [hfile] at hend
  split at hend
  next => exact hend
  next hr =>
    split at hend
    next => exact hend
    next hw =>
      rcases hb with ⟨hclosed, -⟩ | ⟨⟨readFd, writeFd, n, hh⟩, -⟩
      · exact hclosed.none_open fd hend
      · rcases hh.only fd hend with heq | heq
        · exact hr (heq.trans hh.signalPipe.symm)
        · exact hw (heq.trans hh.signalWriteFd.symm)

/-- **The clean-up keeps its contract.** -/
theorem cleanup_meets (hb : p.Between) :
    machine.Meets Safe (fun _ _ p' => p'.Between ∧ p'.Closed) cleanupSignalForwarding [] p := by
  refine Machine.meets_bind.mpr (uninstall_meets hb fun l p₁ hnone htable hpipe hwrite => ?_)
  refine Machine.meets_bind.mpr (change_meets (q := .swapSignalWriteFd (-1)) (Or.inl hnone)
    (fun _ => rfl) (Or.inl hnone) ?_)
  refine Machine.meets_bind.mpr (closeOpened_meets hnone fun l => ?_)
  have hnone₂ : (({ p₁ with signalWriteFd := -1 } : Proc).close p₁.signalWriteFd).handled = [] :=
    Proc.close_handled.trans hnone
  refine Machine.meets_bind.mpr (change_meets (q := .swapSignalPipe (-1)) (Or.inl hnone₂)
    (fun _ => rfl) (Or.inl hnone₂) ?_)
  refine closeOpened_meets hnone₂ fun l => ?_
  have hread : (({ p₁ with signalWriteFd := -1 } : Proc).close p₁.signalWriteFd).signalPipe =
      p.signalPipe := Proc.close_signalPipe.trans hpipe
  rw [hread]
  have hclosed : ((({ ({ p₁ with signalWriteFd := -1 } : Proc).close p₁.signalWriteFd with
      signalPipe := -1 }) : Proc).close p.signalPipe).Closed := by
    apply closed_of_between hb
    · rw [Proc.close_signalPipe]
    · rw [Proc.close_signalWriteFd]
      exact Proc.close_signalWriteFd
    · intro fd
      rw [Proc.fileAt_close]
      congr 1
      change (({ p₁ with signalWriteFd := -1 } : Proc).close p₁.signalWriteFd).fileAt fd = _
      rw [Proc.fileAt_close, hwrite]
      congr 1
      unfold Proc.fileAt
      rw [htable]
  exact ⟨Or.inl ⟨hclosed, Proc.close_handled.trans hnone₂⟩, hclosed⟩

/-- **Both calls keep their contracts.** -/
theorem machine_keeps : machine.Keeps Safe Proc.Between Post where
  idle _ hb := hb.ready.steady
  call
    | .setup, _, hb => setup_meets hb
    | .cleanup, _, hb => cleanup_meets hb

theorem start_between (opened : List Bool) : (start opened).Between := by
  refine Or.inl ⟨⟨rfl, rfl, fun fd hend => ?_⟩, rfl⟩
  have hfile : ∀ fd, FdTable.file (start opened).table fd = none ∨
      FdTable.file (start opened).table fd = some .other := by
    intro fd
    unfold FdTable.file start
    rw [List.getElem?_map]
    cases opened[fd]? with
    | none => exact Or.inl rfl
    | some o => cases o with
      | false => exact Or.inl rfl
      | true => exact Or.inr rfl
  unfold Proc.fileAt at hend
  split at hend
  next =>
    rcases hfile fd.toNat with hf | hf
    all_goals
      rw [hf] at hend
      exact hend
  next => exact hend

end contracts

/-! ## Every sequence of calls -/

abbrev State := Config PipeCall.Ans Proc Call.Result
abbrev Done := Interact.Returned PipeCall.Ans Proc Call.Result

/-- What is promised of the process, between any two steps. -/
structure Bookkept (c : State) : Prop where
  /-- After each call the statics are unset and no pipe is open, or they are its ends. -/
  after_call : ∀ r ∈ c.history,
    r.after.Closed ∨ ∃ readFd writeFd n, r.after.Holds readFd writeFd n
  /-- A `setup` that finds a pipe changes nothing; it returns the read end unless one of its
  own calls failed. -/
  reentry : ∀ before l result after, (⟨.setup, before, l, result, after⟩ : Done) ∈ c.history →
    ∀ readFd writeFd n, before.Holds readFd writeFd n →
      before.Same after ∧ result = if failed l then none else some (readFd : Int)
  /-- A `setup` that finds none makes one, unless one of its calls failed. -/
  first : ∀ before l result after, (⟨.setup, before, l, result, after⟩ : Done) ∈ c.history →
    before.Closed → if failed l then result = none ∧ before.Same after
      else ∃ readFd writeFd n, after.Holds readFd writeFd n ∧ result = some (readFd : Int)
  /-- After a `cleanup` no pipe is open. -/
  cleaned : ∀ before l result after, (⟨.cleanup, before, l, result, after⟩ : Done) ∈ c.history →
    after.Closed
  /-- A handler writes to the write end of the pipe the statics name. -/
  writes : ∀ fd byte k, Prog.ask (PipeCall.write fd byte) k ∈ c.frames →
    c.state.CurrentWriteEnd fd

/-- **The two statics and the descriptors keep in step**, over every sequence of calls, with
signals anywhere and any of the system calls failing. -/
theorem signal_pipe_bookkept {opened : List Bool} {c : State}
    (h : machine.Reaches { state := start opened } c) : Bookkept c := by
  have hkept := machine_keeps.reaches (Machine.kept_start (start_between opened)) h
  refine ⟨?_, ?_, ?_, ?_, ?_⟩
  · intro r hr
    obtain ⟨-, hafter, -⟩ := hkept.history r hr
    rcases hafter with ⟨hclosed, -⟩ | ⟨hholds, -⟩
    · exact Or.inl hclosed
    · exact Or.inr hholds
  · intro before l result after hmem readFd writeFd n hholds
    obtain ⟨-, -, hpost⟩ := hkept.history _ hmem
    cases hf : failed l with
    | true =>
      obtain ⟨hresult, hsame⟩ := hpost.gaveUp hf
      exact ⟨hsame, hresult⟩
    | false =>
      obtain ⟨hresult, hsame⟩ := hpost.existing hf readFd writeFd n hholds
      exact ⟨hsame, hresult⟩
  · intro before l result after hmem hclosed
    obtain ⟨-, -, hpost⟩ := hkept.history _ hmem
    split
    next hf => exact hpost.gaveUp hf
    next hf => exact hpost.opened (Bool.eq_false_iff.mpr hf) hclosed
  · intro before l result after hmem
    exact (hkept.history _ hmem).2.2
  · intro fd byte k hmem
    exact (hkept.frames _ hmem).1

/-- A process with its three streams and room for two descriptors more, in which a pipe is set
up, a signal comes in, the set-up is called again, and the pipe is cleaned up. -/
def visits : List (Move Int32 Signal Call) :=
  .call .setup :: List.replicate 16 (.go 0) ++ .arrive .sigterm :: List.replicate 3 (.go 1) ++
    .call .setup :: .go 0 :: .go 0 :: .call .cleanup :: .go 0 :: .arrive .sigint ::
    List.replicate 13 (.go 0)

theorem visits_run :
    (machine.run { state := start [true, true, true, false, false] } visits).isSome = true := by
  decide

theorem signal_pipe_bookkept_visits : ∃ c, machine.run
    { state := start [true, true, true, false, false] } visits = some c ∧
      c.history.length = 3 ∧ c.state.handled = [] ∧ Bookkept c := by
  refine ⟨_, (Option.some_get visits_run).symm, by decide, by decide, ?_⟩
  exact signal_pipe_bookkept (machine.reaches_of_run (Option.some_get visits_run).symm)

/-- The process once the pipe is set up: every descriptor it may have is open. -/
def full : Proc where
  table := [some .other, some .other, some .other, some (.readEnd 0), some (.writeEnd 0)]
  pipes := 1
  signalPipe := 3
  signalWriteFd := 4
  handled := forwardedSignals

theorem full_holds : full.Holds 3 4 0 := by
  refine ⟨rfl, rfl, rfl, rfl, fun fd hend => ?_⟩
  unfold Proc.fileAt at hend
  split at hend
  next hpos =>
    obtain ⟨n, rfl⟩ := Int.eq_ofNat_of_zero_le hpos
    match n with
    | 0 | 1 | 2 => exact hend.elim
    | 3 => exact Or.inl rfl
    | 4 => exact Or.inr rfl
    | n + 5 => exact hend.elim
  next => exact hend.elim

/-- A set-up that finds a pipe but cannot open another one returns nothing. -/
theorem reentry_needs_room : ¬ ∀ (opened : List Bool) (c : State),
    machine.Reaches { state := start opened } c →
      ∀ before l result after, (⟨.setup, before, l, result, after⟩ : Done) ∈ c.history →
        ∀ readFd writeFd n, before.Holds readFd writeFd n → result = some (readFd : Int) := by
  intro h
  have hfirst : ∃ l, machine.run { state := start [true, true, true, false, false] }
      (.call .setup :: List.replicate 16 (.go 0)) = some { state := full, history := l } :=
    ⟨_, rfl⟩
  obtain ⟨l, hfirst⟩ := hfirst
  have hagain : machine.run { state := full, history := l } [.call .setup, .go 0, .go 0] =
      some { state := full, history := ⟨.setup, full, [⟨.pipe, none⟩], none, full⟩ :: l } := rfl
  have hreach := (machine.reaches_of_run hfirst).trans (machine.reaches_of_run hagain)
  cases h _ _ hreach full [⟨.pipe, none⟩] none full (List.mem_cons_self ..) 3 4 0 full_holds

end SignalPipe
end Procguard
