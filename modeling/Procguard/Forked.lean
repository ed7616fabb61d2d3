import Procguard.Process

/- The forked child of `spawn_command_with_limits` up to the command, with `apply_limits`
   of `rlimit.rs`. It has no way to report an error but its exit status, so an `_exit`
   throws the status. -/
namespace Procguard
open Interact

def EINVAL : Int := 22

inductive ChildCall where
  | setpgid
  | setrlimitAs (bytes : Nat)
  | setrlimitCpu (secs : Nat)
  | execvp (command : String) (args : List String)
  deriving DecidableEq, Repr

/-- The result of `setpgid` is not looked at; `execvp` returns with an error number only. -/
@[reducible] def ChildCall.Ans : ChildCall → Type
  | .setpgid => Unit
  | .setrlimitAs _ | .setrlimitCpu _ => Except Int Unit
  | .execvp _ _ => Option Int

abbrev ForkedAct (ε α : Type) := Act ChildCall.Ans Unit ε α

abbrev childCall {ε : Type} (c : ChildCall) : ForkedAct ε c.Ans := Act.call (A := ChildCall.Ans) c

def applyMemory (memBytes : Option Nat) : ForkedAct TimeoutError Unit :=
  match memBytes with
  | none => pure ()
  | some bytes => do
    match ← childCall (.setrlimitAs bytes) with
    | .ok () => pure ()
    -- EINVAL on macOS is expected
    | .error e => if e ≠ EINVAL then Act.throw (.resourceLimitError e) else pure ()

/-- RLIMIT_CPU uses seconds granularity. -/
def applyCpu (cpuTime : Option Duration) : ForkedAct TimeoutError Unit :=
  match cpuTime with
  | none => pure ()
  | some cpu => do
    match ← childCall (.setrlimitCpu cpu.asSecs) with
    | .ok () => pure ()
    | .error e => Act.throw (.resourceLimitError e)

def applyLimits (limits : ResourceLimits) : ForkedAct TimeoutError Unit := do
  applyMemory limits.memBytes
  applyCpu limits.cpuTime

/-- The exit status of a child whose `execvp` failed. -/
def execFailure (errno : Int) : UInt8 := if errno = ENOENT then 127 else 126

def ownGroup (useProcessGroup : Bool) : ForkedAct UInt8 Unit :=
  if useProcessGroup then do
    let _ ← childCall .setpgid
    pure ()
  else pure ()

/-- Apply resource limits before exec. -/
def limitSelf (limits : ResourceLimits) : ForkedAct UInt8 Unit :=
  if !limits.isEmpty then do
    match ← Act.attempt id (fun t _ => t) (applyLimits limits) with
    | .ok () => pure ()
    | .error _ => Act.throw 125
  else pure ()

def execCommand (command : String) (args : List String) : ForkedAct UInt8 Unit := do
  match ← childCall (.execvp command args) with
  | none => pure ()
  | some errno => Act.throw (execFailure errno)

/-- What the child does; it ends here unless it becomes the command. -/
def forkedChild (command : String) (args : List String) (useProcessGroup : Bool)
    (limits : ResourceLimits) : ForkedAct UInt8 Unit := do
  ownGroup useProcessGroup
  limitSelf limits
  execCommand command args

/-! ## What the child asks for -/

/-- A request that does not start the command. -/
def ChildCall.preparing : ChildCall → Bool
  | .execvp _ _ => false
  | _ => true

/-- The cpu limit that is set is the whole seconds of the time. -/
theorem asking_applyLimits (limits : ResourceLimits) :
    Act.Asking (fun q => q.preparing = true ∧ ∀ secs, q = .setrlimitCpu secs →
      ∃ cpu, limits.cpuTime = some cpu ∧ secs = cpu.asSecs) (applyLimits limits) := by
  have hmemory : ∀ m, Act.Asking (fun q => q.preparing = true ∧ ∀ secs, q = .setrlimitCpu secs →
      ∃ cpu, limits.cpuTime = some cpu ∧ secs = cpu.asSecs) (applyMemory m) := by
    intro m
    cases m with
    | none => exact .pure
    | some bytes =>
      refine .bind (.call ⟨rfl, nofun⟩) fun r => ?_
      cases r with
      | ok _ => exact .pure
      | error e => exact .ite .throw .pure
  refine .bind (hmemory _) fun _ => ?_
  unfold applyCpu
  cases limits.cpuTime with
  | none => exact .pure
  | some cpu =>
    refine .bind (.call ⟨rfl, ?_⟩) fun r => ?_
    · intro secs hsecs
      cases hsecs
      exact ⟨cpu, rfl, rfl⟩
    · cases r with
      | ok _ => exact .pure
      | error e => exact .throw

theorem asking_limitSelf (limits : ResourceLimits) :
    Act.Asking (fun q => q.preparing = true) (limitSelf limits) := by
  have happly := (asking_applyLimits limits).mono fun q h => h.1
  refine .ite (.bind (.attempt happly) fun r => ?_) .pure
  cases r with
  | ok _ => exact .pure
  | error e => exact .throw

/-- A child that was refused its command exits with the status for that error. -/
theorem forkedChild_refused (command : String) (args : List String) (useProcessGroup : Bool)
    (limits : ResourceLimits) :
    (forkedChild command args useProcessGroup limits).Ensures {} () [] fun r _ l' =>
      ∀ errno, ⟨.execvp command args, some errno⟩ ∈ l' → r = .error (execFailure errno) := by
  -- before `execvp` only the preparing calls are made
  have hnone : ∀ {l : Log ChildCall.Ans}, Grown (fun q => q.preparing = true) [] l →
      ∀ errno, ⟨.execvp command args, some errno⟩ ∉ l := by
    intro l hgrown errno hmem
    obtain ⟨t, rfl, hall⟩ := hgrown
    rw [List.append_nil] at hmem
    cases hall _ hmem
  have hgroup : Act.Asking (fun q => q.preparing = true) (ownGroup useProcessGroup) :=
    .ite (.bind (.call rfl) fun _ => .pure) .pure
  unfold forkedChild
  rw [Act.ensures_bind]
  refine (hgroup.ensures_grown () []).mono fun r _ l₁ h₁ => ?_
  cases r with
  | error e => exact fun errno hmem => absurd hmem (hnone h₁ errno)
  | ok _ =>
    dsimp only
    rw [Act.ensures_bind]
    refine ((asking_limitSelf limits).ensures_grown () l₁).mono fun r _ l₂ h₂ => ?_
    have hgrown := h₁.trans h₂
    cases r with
    | error e => exact fun errno hmem => absurd hmem (hnone hgrown errno)
    | ok _ =>
      unfold execCommand
      dsimp only
      rw [Act.ensures_bind, Act.ensures_call]
      intro answer _
      refine ⟨trivial, ?_⟩
      -- so the error in the log is the one that was answered
      have hanswer : ∀ errno, (⟨.execvp command args, some errno⟩ : Ev ChildCall.Ans) ∈
          (⟨.execvp command args, answer⟩ :: l₂ : Log ChildCall.Ans) → answer = some errno := by
        intro errno hmem
        rcases List.mem_cons.mp hmem with heq | hmem
        · cases heq
          rfl
        · exact absurd hmem (hnone hgrown errno)
      cases answer with
      | none => exact fun errno hmem => nomatch hanswer errno hmem
      | some e =>
        intro errno hmem
        cases hanswer errno hmem
        rfl

end Procguard
