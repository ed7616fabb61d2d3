import Procguard.Duties

/- The duties over a whole run of `run_command`. Only the first wait has any: what follows
   it, the grace wait included, asks for none (`stays_reads`), so the readings of the memory
   checks are final when the wait ends, and they decide whether the run ends in the memory
   limit. -/
namespace Procguard
open Interact Spacing

section rest
variable {config : RunConfig} {pid : Int} {w₀ : Watch} {fuel : Nat} {rs : List Nat}

/-- The memory checks so far read `rs`. -/
def Reads (rs : List Nat) (_ : Handles) (l : Trace) : Prop := memoryReads l = rs

theorem asking_reads {σ ε α : Type} {m : Act Ans σ ε α} (hm : m.Asking fun q => q.duty = none)
    (s : σ) {l : Trace} (hl : memoryReads l = rs) :
    m.Ensures (duties config w₀) s l fun _ _ l' => memoryReads l' = rs := by
  refine hm.ensures (fun l' => memoryReads l' = rs) ?_ (fun _ _ => trivial) hl
  intro q l' hq hl' a _
  exact ⟨.off hq, (memoryReads_off (by rw [hq]; decide)).trans hl'⟩

theorem stays_reads {α : Type} {m : SuperAct α} (hm : m.Asking fun q => q.duty = none) :
    Act.Stays (duties config w₀) (Reads rs) m := fun h _ hl => asking_reads hm h hl

/-! ## What asks for no duty -/

theorem asking_line {line : String} (hline : isHeartbeat line = false) :
    Act.Asking (fun q => q.duty = none) (monitorLine config line) := by
  refine .ite (.bind (.call ?_) fun _ => .pure) .pure
  show (if isHeartbeat line = true then _ else _) = _
  rw [hline]
  exact if_neg (by decide)

theorem duty_hook {q : Req} (hq : q.caller = .hook) : q.duty = none := by
  obtain ⟨caller, call⟩ := q
  cases hq
  cases call <;> rfl

theorem asking_hook : Act.Asking (fun q => q.duty = none) (runHook fuel config pid) := by
  unfold runHook
  cases config.onTimeout with
  | none => exact .pure
  | some cmd =>
    refine .bind (.exec ?_) fun _ => .pure
    exact (asking_runOnTimeoutHook fuel cmd pid config).mono fun _ hq => duty_hook hq.1

theorem asking_throttleResume :
    Act.Asking (fun q => q.duty = none) CpuThrottleState.resume :=
  .bind .get fun _ => .ite (.bind (.call rfl) fun _ => .modify) .pure

theorem asking_resumeHeld : Act.Asking (fun q => q.duty = none) resumeThrottle := by
  refine .bind .get fun h => ?_
  cases h.throttle with
  | none => exact .pure
  | some ctx => exact .focus asking_throttleResume

theorem asking_send (sig : Signal) (foreground : Bool) :
    Act.Asking (fun q => q.duty = none) (sendSignal pid sig foreground) := by
  have hkill : Act.Asking (fun q => q.duty = none) (killProcess pid sig) := by
    refine .bind (.call rfl) fun r => ?_
    cases r with
    | ok _ => exact .pure
    | error _ => exact .ite .pure .throw
  refine .ite hkill (.bind (.call rfl) fun r => ?_)
  cases r with
  | ok _ => exact .pure
  | error _ => exact .ite hkill .throw

theorem asking_reapAs (result : RawExitStatus → ResourceUsage → RunResult) :
    Act.Asking (fun q => q.duty = none) (reapAs fuel result) :=
  .bind (asking_childWaitOrFail (fun _ => rfl) fuel) fun _ => .bind .modify fun _ => .pure

theorem asking_killAndReap (result : RawExitStatus → ResourceUsage → RunResult) :
    Act.Asking (fun q => q.duty = none) (killAndReap fuel config pid result) :=
  .bind asking_resumeHeld fun _ => .bind (asking_send .sigkill _) fun _ => asking_reapAs result

theorem asking_forward (sig : Signal) :
    Act.Asking (fun q => q.duty = none) (forwardSignal fuel config pid sig) := by
  have hline : isHeartbeat s!"timeout: forwarding signal {sig.name} to command" = false := by
    simp only [String.append_assoc]
    exact isHeartbeat_append _ (by decide)
  refine .bind (asking_line hline) fun _ => .bind asking_resumeHeld fun _ => .bind (asking_send sig _) fun _ => .bind (asking_childWait (fun _ => rfl) fuel)
    fun r => .bind .modify fun _ => ?_
  cases r <;> exact .pure

/-! ## What follows the first wait -/

/-- The grace wait has neither heartbeat nor throttle nor memory limit. -/
theorem graceWait_reads (killAfter : Duration) (confine : Confine) :
    Act.Stays (duties config w₀) (Reads rs) (graceWait fuel pid killAfter confine) := by
  refine .focus fun h l hl => ?_
  have hlicensed : WaitArgs.Licensed { pid, timeout := killAfter, confine } config [] :=
    ⟨by rintro _ ⟨⟩, by rintro _ ⟨⟩⟩
  have hbegun : Begun config { pid, timeout := killAfter, confine } [] rs w₀
      { child := h.child, throttle := none } l :=
    ⟨by rintro ⟨⟩, by rintro ⟨⟩, by rintro _ ⟨⟩, hl, List.nil_suffix⟩
  refine (waitWithKqueue_onTime hlicensed hbegun).mono fun r g l' hr => ?_
  rcases r with e | _ | _ | _ | _
  · exact hr
  · exact hr
  · exact hr
  · obtain ⟨m, rest, hm, -⟩ := hr
    cases hm
  · exact hr

theorem onMemoryLimit_reads (limitBytes actualBytes : Nat) :
    Act.Stays (duties config w₀) (Reads rs)
      (onMemoryLimit fuel config pid limitBytes actualBytes) := by
  have hline : ∀ text : String, isHeartbeat ("timeout: memory limit exceeded (" ++ text) = false :=
    fun text => isHeartbeat_append text (by decide)
  refine .bind (stays_reads (asking_line (by simp only [String.append_assoc]; exact hline _))) fun _ => .bind (stays_reads asking_resumeHeld)
    fun _ => .bind (stays_reads (asking_send _ _)) fun _ => ?_
  cases config.killAfter with
  | none => exact stays_reads (asking_reapAs _)
  | some killAfter =>
    refine .bind (graceWait_reads killAfter _) fun r => ?_
    cases r with
    | exited _ _ => exact stays_reads (.bind .modify fun _ => .pure)
    | timedOut _ => exact stays_reads (asking_killAndReap _)
    | memoryLimitExceeded _ _ => exact stays_reads (asking_killAndReap _)
    | receivedSignal _ => exact stays_reads (asking_killAndReap _)

theorem onTimeout_reads (reason : TimeoutReason) :
    Act.Stays (duties config w₀) (Reads rs) (onTimeout fuel config pid reason) := by
  have htriggered : ∀ text : String, isHeartbeat s!"timeout: triggered by {text}" = false :=
    fun _ => isHeartbeat_append _ (by decide)
  have hsending : ∀ name : String,
      isHeartbeat s!"timeout: sending signal {name} to command" = false := by
    intro name
    simp only [String.append_assoc]
    exact isHeartbeat_append _ (by decide)
  refine .bind (stays_reads (asking_line (htriggered _))) fun _ => .bind (stays_reads asking_hook)
    fun hook => .bind (stays_reads (asking_line (hsending _))) fun _ =>
    .bind (stays_reads asking_resumeHeld) fun _ => .bind (stays_reads (asking_send _ _)) fun _ => ?_
  cases config.killAfter with
  | none => exact stays_reads (asking_reapAs _)
  | some killAfter =>
    refine .bind (graceWait_reads killAfter _) fun r => ?_
    have hkill : isHeartbeat "timeout: sending signal SIGKILL to command" = false := by decide
    cases r with
    | exited _ _ => exact stays_reads (.bind .modify fun _ => .pure)
    | receivedSignal sig => exact stays_reads (asking_forward sig)
    | timedOut _ =>
      exact stays_reads (.bind (asking_line hkill) fun _ => asking_killAndReap _)
    | memoryLimitExceeded _ _ =>
      exact stays_reads (.bind (asking_line hkill) fun _ => asking_killAndReap _)

theorem handleResult_reads (r : WaitResult) :
    Act.Stays (duties config w₀) (Reads rs) (handleResult fuel config pid r) := by
  cases r with
  | exited _ _ => exact stays_reads (.bind .modify fun _ => .pure)
  | receivedSignal sig => exact stays_reads (asking_forward sig)
  | memoryLimitExceeded _ _ => exact onMemoryLimit_reads _ _
  | timedOut reason => exact onTimeout_reads reason

/-! ## The verdict on the memory -/

/-- The limit and the memory in use of a run that ended in the memory limit. -/
def RunResult.memoryVerdict : RunResult → Option (Nat × Nat)
  | .memoryLimitExceeded _ _ _ _ limitBytes actualBytes => some (limitBytes, actualBytes)
  | _ => none

def WaitResult.memoryVerdict : WaitResult → Option (Nat × Nat)
  | .memoryLimitExceeded limitBytes actualBytes => some (limitBytes, actualBytes)
  | _ => none

/-- The verdict of the wait is the verdict of the run. -/
theorem handleResult_returns (r : WaitResult) :
    Act.Returns (fun x => x.memoryVerdict = r.memoryVerdict) (handleResult fuel config pid r) := by
  cases r with
  | exited _ _ => exact .last fun _ => .pure rfl
  | receivedSignal sig => exact forwardSignal_gives fun _ _ _ => rfl
  | memoryLimitExceeded _ _ => exact onMemoryLimit_gives fun _ _ _ => rfl
  | timedOut reason => exact onTimeout_gives (fun _ _ _ _ => rfl) fun _ _ _ => rfl

/-- What the memory readings say of a verdict: one over the limit is the last, and it is
    the verdict; without one there is none. -/
structure MemoryTold (config : RunConfig) (verdict : Option (Nat × Nat)) (l : Trace) : Prop where
  told : ∀ limit actual, verdict = some (limit, actual) ↔
    config.limits.memBytes = some limit ∧ (memoryReads l).head? = some actual ∧ limit < actual
  before : ∀ limit, config.limits.memBytes = some limit → ∀ b ∈ (memoryReads l).tail, b ≤ limit
  unasked : config.limits.memBytes = none → memoryReads l = []

theorem DutiesDone.told {startNs : Nat} {r : WaitResult} {l : Trace}
    (hdone : DutiesDone (waitArgsOf config pid startNs) [] (.ok r) l) :
    MemoryTold config r.memoryVerdict l := by
  cases hlimit : config.limits.memBytes with
  -- without a limit memory is never read, so there is no verdict either
  | none =>
    have hargs : (waitArgsOf config pid startNs).memoryLimit = none := by
      rw [waitArgsOf, hlimit]
      rfl
    have hnone : r.memoryVerdict = none ∧ memoryReads l = [] := by
      cases r with
      | memoryLimitExceeded _ _ =>
        obtain ⟨m, rest, hm, -⟩ := hdone
        rw [hargs] at hm
        cases hm
      | exited _ _ => exact ⟨rfl, by simpa [DutiesDone, WaitArgs.Within, hargs] using hdone⟩
      | timedOut _ => exact ⟨rfl, by simpa [DutiesDone, WaitArgs.Within, hargs] using hdone⟩
      | receivedSignal _ => exact ⟨rfl, by simpa [DutiesDone, WaitArgs.Within, hargs] using hdone⟩
    refine ⟨fun limit actual => ?_, fun limit h => ?_, fun _ => hnone.2⟩
    · rw [hnone.1, hlimit]
      simp
    · rw [hlimit] at h
      cases h
  | some limit₀ =>
    have hargs : (waitArgsOf config pid startNs).memoryLimit =
        some { limitBytes := limit₀, checkIntervalNs } := by
      rw [waitArgsOf, hlimit]
      rfl
    -- every other end of the wait leaves all readings within the limit
    have hwithin : (waitArgsOf config pid startNs).Within [] (memoryReads l) →
        MemoryTold config none l := by
      intro h
      rw [WaitArgs.Within, hargs] at h
      have hbelow : ∀ b ∈ memoryReads l, b ≤ limit₀ := h
      refine ⟨fun limit actual => ?_, fun limit h b hb => ?_, fun h => ?_⟩
      · refine ⟨by rintro ⟨⟩, ?_⟩
        rintro ⟨hsome, hhead, hover⟩
        rw [hlimit] at hsome
        cases hsome
        have := hbelow actual (List.mem_of_mem_head? hhead)
        omega
      · rw [hlimit] at h
        cases h
        exact hbelow b (List.mem_of_mem_tail hb)
      · rw [hlimit] at h
        cases h
    cases r with
    | exited _ _ => exact hwithin hdone
    | timedOut _ => exact hwithin hdone
    | receivedSignal _ => exact hwithin hdone
    | memoryLimitExceeded limit actual =>
      obtain ⟨m, rest, hm, hl, hover, hreads, hrest⟩ := hdone
      rw [hargs] at hm
      cases hm
      -- the verdict names the limit it was given and its last reading
      obtain rfl : limit = limit₀ := hl
      refine ⟨fun limit' actual' => ?_, fun limit' h b hb => ?_, fun h => ?_⟩
      · rw [hreads, hlimit]
        simp only [WaitResult.memoryVerdict, Option.some.injEq, Prod.mk.injEq, List.head?_cons]
        constructor
        · rintro ⟨rfl, rfl⟩
          exact ⟨rfl, rfl, hover⟩
        · rintro ⟨rfl, rfl, -⟩
          exact ⟨rfl, rfl⟩
      · rw [hlimit] at h
        cases h
        rw [hreads] at hb
        exact hrest b hb
      · rw [hlimit] at h
        cases h

end rest

/-! ## The whole run -/

section run
variable {config : RunConfig} {pid : Int} {w₀ : Watch} {fuel : Nat} {l : Trace}

/-- No duty has been done yet. -/
structure Untimed (w₀ : Watch) (l : Trace) : Prop where
  times : ∀ d, timesOf d w₀ l = []
  reads : memoryReads l = []

theorem Untimed.event (u : Untimed w₀ l) {q : Req} {a : Ans q} (hq : q.duty = none) :
    Untimed w₀ (⟨q, a⟩ :: l) :=
  ⟨fun d => (timesOf_off hq d).trans (u.times d),
    (memoryReads_off (by rw [hq]; decide)).trans u.reads⟩

theorem within_nil (a : WaitArgs) {rs : List Nat} (h : rs = []) : a.Within [] rs := by
  subst h
  rw [WaitArgs.Within]
  cases a.memoryLimit with
  | none => rfl
  | some m => exact fun b hb => absurd hb List.not_mem_nil

theorem Untimed.begun {a : WaitArgs} {h : Handles} (u : Untimed w₀ l) (hnone : h.throttle = none)
    {base : Trace} (hbase : base <:+ l) : Begun config a base [] w₀ h l :=
  ⟨fun _ => u.times .heartbeat, fun _ => u.times .memory, by rw [hnone]; rintro _ ⟨⟩,
    within_nil a u.reads, hbase⟩

/-- The throttle takes its first sample, if it is asked for. -/
theorem attachThrottle_begun {a : WaitArgs} {child : RawChild} {startNs : Nat}
    (u : Untimed w₀ l) (hclock : (watch w₀ l).clock = startNs) :
    (attachThrottle config pid startNs).Ensures (duties config w₀) { child } l fun _ h' l' =>
      Begun config a l [] w₀ h' l' := by
  unfold attachThrottle
  cases hcfg : config.cpuThrottle with
  | none => exact u.begun rfl (List.suffix_refl l)
  | some cfg =>
    simp only [Act.ensures_bind, Act.ensures_exec, CpuThrottleState.new]
    intro r _
    have hq : Req.duty ⟨.throttle, .procPidRusage pid⟩ = some .throttle := rfl
    have hreads : memoryReads (⟨⟨.throttle, .procPidRusage pid⟩, r⟩ :: l) = [] :=
      (memoryReads_off (by rw [hq]; decide)).trans u.reads
    have hsampled : timesOf .throttle w₀ (⟨⟨.throttle, .procPidRusage pid⟩, r⟩ :: l) = [startNs] := by
      rw [timesOf_done hq, u.times, hclock]
    have hbegun : ∀ h : Handles, (∀ ctx, h.throttle = some ctx →
        cfg = ctx.cfg ∧ ctx.state.lastWallNs = startNs) →
        Begun config a l [] w₀ h (⟨⟨.throttle, .procPidRusage pid⟩, r⟩ :: l) := by
      refine fun h hctx => ⟨fun _ => ?_, fun _ => ?_, fun ctx h => ?_, within_nil a hreads,
        List.suffix_cons _ l⟩
      · rw [timesOf_other hq (by decide)]
        exact u.times .heartbeat
      · rw [timesOf_other hq (by decide)]
        exact u.times .memory
      · obtain ⟨rfl, hlast⟩ := hctx ctx h
        rw [hsampled, hlast]
        exact ⟨hcfg, rfl⟩
    refine ⟨⟨by rintro ⟨⟩, fun _ => ⟨cfg, hcfg, ?_⟩, by rintro ⟨⟩⟩, ?_⟩
    · rw [u.times]
      rintro o ⟨⟩
    · cases r with
      | some info =>
        refine hbegun _ ?_
        rintro ctx ⟨⟩
        exact ⟨rfl, rfl⟩
      | none =>
        -- without a first sample there is no throttle
        have hnone : Begun config a l [] w₀ { child } _ := hbegun { child } (by rintro _ ⟨⟩)
        have hline : ∀ text : String, Act.Ensures (duties config w₀)
            (sys .monitor (.eprintln s!"timeout: warning: CPU throttle disabled ({text})") >>=
              fun _ => (pure () : SuperAct Unit)) { child }
            (⟨⟨.throttle, .procPidRusage pid⟩, none⟩ :: l) fun _ h' l' => Begun config a l [] w₀ h' l' := by
          intro text
          simp only [Act.ensures_bind, Act.ensures_call, Act.ensures_pure]
          refine hnone.asks ?_
          show (if isHeartbeat _ = true then _ else _) = _
          simp only [String.append_assoc]
          rw [isHeartbeat_append _ (by decide)]
          exact if_neg (by decide)
        have hquiet : Act.Ensures (duties config w₀) (pure () : SuperAct Unit) { child }
            (⟨⟨.throttle, .procPidRusage pid⟩, none⟩ :: l) fun _ h' l' =>
              Begun config a l [] w₀ h' l' := hnone
        exact Act.ensures_ite (fun _ => hquiet) fun _ => hline _

/-- What the monitor tells of the memory when it returns. -/
def ToldMemory (config : RunConfig) (r : Except TimeoutError RunResult) (l : Trace) : Prop :=
  ∀ x, r = .ok x → MemoryTold config x.memoryVerdict l

theorem supervise_duties {child : RawChild} {startNs : Nat} (u : Untimed w₀ l)
    (hclock : (watch w₀ l).clock = startNs) (hborn : oldest bornPid l = some pid)
    (hfirst : oldest monitorClock l = some startNs) :
    (supervise fuel config pid startNs).Ensures (duties config w₀) { child } l fun r _ l' =>
      ToldMemory config r l' := by
  have hlicensed : (waitArgsOf config pid startNs).Licensed config l := by
    refine ⟨fun hb hhb => ?_, fun m hm => ?_⟩
    · obtain ⟨d, hd, rfl⟩ := Option.map_eq_some_iff.mp hhb
      exact ⟨rfl, ⟨d, hd, rfl⟩, hborn, hfirst, rfl⟩
    · obtain ⟨limit, hlimit, rfl⟩ := Option.map_eq_some_iff.mp hm
      exact ⟨hlimit, rfl⟩
  rw [supervise, Act.ensures_bind]
  refine (attachThrottle_begun (a := waitArgsOf config pid startNs) u hclock).mono fun r h₁ l₁ hbegun => ?_
  cases r with
  | error e => rintro _ ⟨⟩
  | ok _ =>
    dsimp only
    rw [Act.ensures_bind]
    refine (waitWithKqueue_onTime hlicensed hbegun).mono fun r h₂ l₂ hdone => ?_
    cases r with
    | error e => rintro _ ⟨⟩
    | ok r =>
      have htold := hdone.told
      refine ((handleResult_reads r h₂ l₂ rfl).with (handleResult_returns r h₂ l₂)).mono
        fun r' h₃ l₃ hr x hx => ?_
      obtain ⟨hreads, hverdict⟩ := hr
      rw [hverdict x hx]
      have hsame : memoryReads l₃ = memoryReads l₂ := hreads
      exact ⟨by rw [hsame]; exact htold.told, by rw [hsame]; exact htold.before,
        by rw [hsame]; exact htold.unasked⟩

theorem dropThrottle_duties (h : Handles) {rs : List Nat} (hl : memoryReads l = rs) :
    (dropThrottle h).Ensures (duties config w₀) l fun _ l' => memoryReads l' = rs := by
  unfold dropThrottle
  cases h.throttle with
  | none => exact hl
  | some ctx =>
    dsimp only
    rw [Prog.ensures_bind, CpuThrottleState.drop, Prog.ensures_bind]
    exact asking_reads asking_throttleResume ctx.state hl

theorem monitorWithTimeout_duties (u : Untimed w₀ l) (hborn : oldest bornPid l = some pid)
    (hclock : oldest monitorClock l = none) :
    (monitorWithTimeout fuel config).Ensures (duties config w₀) { child := { pid } } l
      fun r _ l' => ToldMemory config r l' := by
  simp only [monitorWithTimeout, Act.ensures_bind, Act.ensures_get, ensures_now]
  -- the first reading, whichever clock it is taken from
  have hread : ∀ (e : Event) (t : Nat), e.req.duty = none → bornPid e = none →
      monitorClock e = some t → (watch w₀ (e :: l)).clock = t →
      ((supervise fuel config pid t).onExit dropThrottle).Ensures (duties config w₀)
        { child := { pid } } (e :: l) fun r _ l' => ToldMemory config r l' := by
    intro e t hq hb hr hw
    rw [Act.ensures_onExit]
    refine (supervise_duties (u.event hq) hw (oldest_cons hborn) (oldest_first hclock hr)).mono
      fun r h l' htold => ?_
    refine (dropThrottle_duties h rfl).mono fun h' l'' hreads x hx => ?_
    have hsame : memoryReads l'' = memoryReads l' := hreads
    exact ⟨by rw [hsame]; exact (htold x hx).told, by rw [hsame]; exact (htold x hx).before,
      by rw [hsame]; exact (htold x hx).unasked⟩
  cases hconfine : config.confine with
  | wall =>
    intro r _
    refine ⟨.off rfl, ?_⟩
    cases r with
    | none => rintro _ ⟨⟩
    | some t => exact hread _ t.toNat rfl rfl rfl rfl
  | active =>
    intro t _
    exact ⟨.off rfl, hread _ t.toNat rfl rfl rfl rfl⟩

/-- Without a timeout there is nothing to do over and over. -/
theorem runForever_duties (u : Untimed w₀ l) (h : Handles) :
    (runForever fuel).Ensures (duties config w₀) h l fun r _ l' => ToldMemory config r l' := by
  have hreturns : Act.Returns (fun x => x.memoryVerdict = none) (runForever fuel) :=
    .last fun _ => .pure rfl
  have hasks : Act.Asking (fun q => q.duty = none) (runForever fuel) :=
    .bind (asking_childWaitOrFail (fun _ => rfl) fuel) fun _ => .pure
  refine ((asking_reads hasks h u.reads).with (hreturns h l)).mono fun r _ l' hr x hx => ?_
  obtain ⟨hreads, hverdict⟩ := hr
  rw [hverdict x hx]
  exact ⟨fun limit actual => by simp [hreads], fun limit _ b hb => by simp [hreads] at hb,
    fun _ => hreads⟩

theorem runCommand_duties (config : RunConfig) (w₀ : Watch) (fuel : Nat) (command : String)
    (args : List String) :
    (runCommand fuel command args config).Ensures (duties config w₀) [] (ToldMemory config) := by
  -- the spawn is the first event, and with it the pid is known
  have hchild : ∀ (e : Event) (pid : Int), e.req.duty = none → bornPid e = some pid →
      monitorClock e = none →
      ((runChild fuel config { child := { pid } }).bind fun r => .done r.1).Ensures
        (duties config w₀) [e] (ToldMemory config) := by
    intro e pid hq hborn hclock
    have u : Untimed w₀ [e] := Untimed.event (l := []) ⟨fun d => rfl, rfl⟩ hq
    rw [Prog.ensures_bind, runChild]
    have hrun : (if isNoTimeout config.timeout then runForever fuel
        else monitorWithTimeout fuel config).Ensures (duties config w₀) { child := { pid } } [e]
          fun r _ l' => ToldMemory config r l' := by
      refine Act.ensures_ite (fun _ => runForever_duties u _) fun _ =>
        monitorWithTimeout_duties u (oldest_first rfl hborn) ?_
      show ([e].filterMap monitorClock).getLast? = none
      rw [List.filterMap_cons_none hclock]
      rfl
    refine Prog.Ensures.mono ?_ hrun
    rintro ⟨r, h⟩ l' hr
    exact hr
  have hfail : ∀ (e : SpawnError) (l : Trace),
      ToldMemory config (.error (ofSpawnError e)) l := by rintro e l _ ⟨⟩
  rw [runCommand, Prog.ensures_bind, spawnFor]
  split
  · rw [spawnCommand]
    split
    · exact hfail _ _
    · intro r _
      refine ⟨.off rfl, ?_⟩
      cases r with
      | ok pid => exact hchild _ pid rfl rfl rfl
      | error errno => exact hfail _ _
  · rw [spawnCommandWithLimits]
    split
    · exact hfail _ _
    · intro r _
      refine ⟨.off rfl, ?_⟩
      cases r with
      | ok pid => exact hchild _ pid rfl rfl rfl
      | error errno => exact hfail _ _

end run

/-- How often a duty is done, if at all. -/
def Duty.intervalNs (config : RunConfig) : Duty → Option Nat
  | .heartbeat => config.heartbeat.map durationToNs
  | .throttle => config.cpuThrottle.map (·.intervalNs)
  | .memory => config.limits.memBytes.map fun _ => checkIntervalNs

section laws
variable {config : RunConfig} {w₀ : Watch} {e : Event} {l : Trace}

/-- A duty that is done has an interval, and comes that long after the last time. -/
theorem DutyGuar.spaced (hg : DutyGuar config w₀ e l) {d : Duty} (hd : e.req.duty = some d) :
    ∃ gap, d.intervalNs config = some gap ∧
      ∀ o ∈ (timesOf d w₀ l).head?, After gap u64Max (watch w₀ l).clock o := by
  have horigin : ∀ {gap o start : Nat} {ts : List Nat}, o ∈ ts.head? →
      After gap u64Max (watch w₀ l).clock (ts.headD start) →
      After gap u64Max (watch w₀ l).clock o := by
    intro gap o start ts ho hafter
    rw [List.headD_eq_head?_getD, Option.mem_def.mp ho] at hafter
    exact hafter
  cases d with
  | heartbeat =>
    obtain ⟨d, hinterval, -, hspaced⟩ := (hg.heartbeat hd).inTurn
    refine ⟨durationToNs d, by rw [Duty.intervalNs, hinterval]; rfl, fun o ho => ?_⟩
    exact horigin ho ((Spaced.cons_iff.mp hspaced).1 _ (head?_origin _ _))
  | throttle =>
    obtain ⟨cfg, hcfg, hafter⟩ := hg.throttle hd
    exact ⟨cfg.intervalNs, by rw [Duty.intervalNs, hcfg]; rfl, hafter⟩
  | memory =>
    obtain ⟨limit, hlimit, -, hafter⟩ := hg.memory hd
    exact ⟨checkIntervalNs, by rw [Duty.intervalNs, hlimit]; rfl, fun o ho => horigin ho hafter⟩

/-- The newest doing of a duty that was done. -/
theorem timesOf_newest {P : Event → Trace → Prop} {d : Duty} (hall : Always P l)
    (hne : timesOf d w₀ l ≠ []) : ∃ e before, P e before ∧ e.req.duty = some d ∧
      timesOf d w₀ l = (watch w₀ before).clock :: timesOf d w₀ before := by
  induction l with
  | nil => exact absurd rfl hne
  | cons e l ih =>
    by_cases he : e.req.duty = some d
    · exact ⟨e, l, hall.1, he, timesOf_done he⟩
    · have hskip : timesOf d w₀ (e :: l) = timesOf d w₀ l :=
        marks_none (by rw [doneAt, if_neg he])
      rw [hskip] at hne ⊢
      exact ih hall.2 hne

end laws

/-- **Duties keep their intervals.** In every run of `run_command` the heartbeats, the
    samples of the throttle and the memory checks are each at least their interval apart,
    as the monitor's clock reads them, even when that clock goes backwards; so in no window
    of time are there more of them than intervals fit in. A duty that was not asked for is
    never done. -/
theorem duties_paced (W : World) (fuel : Nat) (command : String) (args : List String)
    (config : RunConfig) (d : Duty) :
    let times := timesOf d {} ((runCommand fuel command args config).run W []).2
    (d.intervalNs config = none → times = []) ∧
      ∀ gap, d.intervalNs config = some gap → Spaced gap u64Max times ∧
        (0 < gap → ∀ start width, start + width ≤ u64Max →
          (times.filter fun t => decide (start ≤ t ∧ t < start + width)).length * gap <
            width + gap) := by
  intro times
  have hall := ((runCommand_duties config {} fuel command args).sound W trivial
    (Always.of_forall (fun _ _ => trivial) _)).1
  refine ⟨fun hnone => ?_, fun gap hgap => ?_⟩
  · by_contra hne
    obtain ⟨e, before, hg, hd, -⟩ := timesOf_newest hall hne
    obtain ⟨gap, hgap, -⟩ := DutyGuar.spaced hg hd
    rw [hnone] at hgap
    cases hgap
  · have hspaced : Spaced gap u64Max times := by
      refine marks_spaced (hall.mono fun e l hg t ht o ho => ?_)
      unfold doneAt at ht
      split at ht
      · next hd =>
        cases ht
        obtain ⟨gap', hgap', hafter⟩ := DutyGuar.spaced hg hd
        rw [hgap] at hgap'
        cases hgap'
        exact hafter o ho
      · cases ht
    exact ⟨hspaced, fun hpos => hspaced.window hpos⟩

/-- **Heartbeats tell the truth.** In every run of `run_command` each heartbeat line is one
    that was asked for and not silenced; it names the child and the time since the
    supervision began, as the monitor's clock just read it, and it is printed before the
    deadline. There are fewer of them than intervals fit into the timeout. -/
theorem heartbeats_truthful (W : World) (fuel : Nat) (command : String) (args : List String)
    (config : RunConfig) :
    let l := ((runCommand fuel command args config).run W []).2
    Always (fun e before => e.req.duty = some .heartbeat → Beat config {} e before) l ∧
      (timesOf .heartbeat {} l ≠ [] → ∃ d, config.heartbeat = some d ∧ 0 < durationToNs d ∧
        (timesOf .heartbeat {} l).length * durationToNs d < durationToNs config.timeout) := by
  intro l
  have hall : Always (DutyGuar config {}) l :=
    ((runCommand_duties config {} fuel command args).sound W trivial
      (Always.of_forall (fun _ _ => trivial) _)).1
  have hbeats : Always (fun e before => e.req.duty = some .heartbeat → Beat config {} e before) l :=
    hall.mono fun _ _ hg => hg.heartbeat
  refine ⟨hbeats, fun hne => ?_⟩
  obtain ⟨e, before, hbeat, hd, htimes⟩ := timesOf_newest hbeats hne
  obtain ⟨-, ⟨d, hinterval, hpos, hspaced⟩, hearly, -⟩ := hbeat hd
  refine ⟨d, hinterval, hpos, ?_⟩
  have hdeadline : (watch {} before).clock <
      min ((watch {} before).start + durationToNs config.timeout) u64Max := hearly
  have hspan := Spaced.span_from hspaced (List.cons_ne_nil _ _)
    (by rintro _ ⟨⟩; omega) _ rfl
  rw [htimes]
  omega

/-- **The verdict on the memory is exact.** A run of `run_command` ends in the memory limit
    exactly if a memory check read more than the limit; that check was the last one, its
    reading is the one reported, and every check before it read no more than the limit. -/
theorem memory_verdict_exact (W : World) (fuel : Nat) (command : String) (args : List String)
    (config : RunConfig) (r : RunResult) (l : Trace)
    (hrun : (runCommand fuel command args config).run W [] = (some (.ok r), l)) :
    MemoryTold config r.memoryVerdict l := by
  have htold := (runCommand_duties config {} fuel command args).returns W
    (Always.of_forall (fun _ _ => trivial) _) (congrArg Prod.fst hrun)
  rw [hrun] at htold
  exact htold r rfl

/-- Twice the memory the child may use, found by the first check; then the child exits. -/
def greedyWorld : World := Machine.world {
  wallClock := fun l => some (if kevents l = 0 then 0 else 200000000)
  kevent := fun _ => .ok { ident := 1, filter := EVFILT_TIMER, flags := 0 }
  rusage := fun _ => some ⟨0, 0, 200⟩ }

def hundredBytes : RunConfig := { limits := { memBytes := some 100 } }

/-- A run that reaches its limit of 100 bytes with 200 in use. -/
theorem memory_verdict_exact_hog : ∃ l,
    (runCommand 2 "hog" [] hundredBytes).run greedyWorld [] =
      (some (.ok (.memoryLimitExceeded .sigterm false (some ⟨0⟩)
        (some (rusageToResourceUsage {})) 100 200)), l) ∧
      MemoryTold hundredBytes (some (100, 200)) l :=
  ⟨_, rfl, memory_verdict_exact greedyWorld 2 "hog" [] hundredBytes _ _ rfl⟩

end Procguard
