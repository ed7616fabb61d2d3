import Procguard.Ledger

/- A supervised run, from the first clock reading of the monitor to the drop of the
   throttle. Each step of the monitor has one lemma under the contract `ledger`;
   `monitorWithTimeout_ensures` puts them together: whatever the system answers, every
   event keeps `LedgerGuar` and the result tells what was done (`Settled`). -/
namespace Procguard
open Interact

/-! ## The waits -/

/-- What a wait may rely on while the child is supervised. `view` is the state of the
    monitor behind that of the wait. -/
structure Phase (config : RunConfig) (pid : Int) (w₀ : Watch) (sent : List Int)
    (P : Handles → Trace → Prop) (view : Handles → Handles) : Prop where
  supervised : ∀ h l, P h l → Supervised config pid sent (view h) l
  child : ∀ h, (view h).child = h.child
  blank : ∀ e h l, Blank e → P h l → P h (e :: l)

/-- How a wait ends. -/
def Waited (config : RunConfig) (pid : Int) (w₀ : Watch) (a : WaitArgs) (sent : List Int)
    (P : Handles → Trace → Prop) :
    Except TimeoutError WaitResult → Handles → Trace → Prop
  | .ok (.exited status rusage), _, l => ∃ st : RawExitStatus × Rusage,
    Reaped config pid sent st l ∧ status = st.1 ∧ rusage = rusageToResourceUsage st.2
  | .ok r, h, l => P h l ∧ Verdict w₀ a l r ∧ (watch w₀ l).Settled
  | .error _, h, l => P h l ∧ (Ever (Fatal w₀) l ∨ Ever (WaitFailed pid) l)

section waits
variable {config : RunConfig} {pid : Int} {w₀ : Watch} {fuel : Nat} {sent : List Int}
  {P : Handles → Trace → Prop} {view : Handles → Handles} {h : Handles} {l : Trace}

namespace Phase

theorem asks_idle (F : Phase config pid w₀ sent P view) (hP : P h l) {q : Req}
    (hq : q.idle = true) : Asks (ledger config pid w₀) q l fun _ l' => P h l' :=
  fun a _ => ⟨.of_idle hq, F.blank _ h l (.of_idle a hq) hP⟩

theorem asks_wait4 (F : Phase config pid w₀ sent P view) (hP : P h l)
    (hcause : Ever (ExitNotice w₀) l ∨ sent ≠ []) :
    Asks (ledger config pid w₀) ⟨.monitor, .wait4 h.child.pid⟩ l fun r l' => match r with
      | .ok st => Reaped config pid sent st l'
      | .error err => P h l' ∧ (err ≠ EINTR → Ever (WaitFailed pid) l') := by
  have hs := F.supervised h l hP
  have hpid : h.child.pid = pid := by rw [← F.child]; exact hs.child_pid
  rw [hpid]
  intro r hr
  obtain ⟨hg, hpost⟩ := Procguard.asks_wait4 hs hcause r hr
  refine ⟨hg, ?_⟩
  cases r with
  | ok st => exact hpost
  | error err => exact ⟨F.blank _ h l ⟨fun _ => rfl, fun _ => rfl, rfl⟩ hP, hpost.2⟩

theorem asks_wait4NoHang (F : Phase config pid w₀ sent P view) (hP : P h l) :
    Asks (ledger config pid w₀) ⟨.monitor, .wait4NoHang h.child.pid⟩ l fun r l' => match r with
      | .ok (some st) => Reaped config pid sent st l'
      | _ => P h l' := by
  have hs := F.supervised h l hP
  have hpid : h.child.pid = pid := by rw [← F.child]; exact hs.child_pid
  rw [hpid]
  intro r hr
  obtain ⟨hg, hpost⟩ := Procguard.asks_wait4NoHang hs r hr
  refine ⟨hg, ?_⟩
  match r, hpost with
  | .ok (some _), hpost => exact hpost
  | .ok none, _ => exact F.blank _ h l ⟨fun _ => rfl, fun p => by simp [reapOf], rfl⟩ hP
  | .error _, _ => exact F.blank _ h l ⟨fun _ => rfl, fun _ => rfl, rfl⟩ hP

theorem live (F : Phase config pid w₀ sent P view) (hP : P h l) : h.child.exited = false := by
  rw [← F.child]
  exact (F.supervised h l hP).live

/-- `child.wait()`: reaped, or a wait that failed. -/
theorem childWait (F : Phase config pid w₀ sent P view) (hP : P h l)
    (hcause : Ever (ExitNotice w₀) l ∨ sent ≠ []) :
    (childWait fuel).Ensures (ledger config pid w₀) h l fun r h' l' => match r with
      | .ok (.ok r) => h' = h.reaped ∧ ∃ st : RawExitStatus × Rusage,
        Reaped config pid sent st l' ∧ r = (st.1, rusageToResourceUsage st.2)
      | .ok (.error _) => h' = h ∧ P h l' ∧ Ever (WaitFailed pid) l'
      | .error _ => False := by
  refine childWait_ensures (fun _ l => P h l ∧ (Ever (ExitNotice w₀) l ∨ sent ≠ []))
    (F.live hP) ?_ (fun _ _ => trivial) ⟨hP, hcause⟩
  rintro n l ⟨hP, hcause⟩
  refine (F.asks_wait4 hP hcause).mono fun r hr => ?_
  cases r with
  | ok st => exact ⟨rfl, st, hr, rfl⟩
  | error err =>
    dsimp only
    split
    · exact ⟨hr.1, hcause.imp_left .inr⟩
    · next hne => exact ⟨rfl, hr.1, hr.2 hne⟩

theorem childWaitOrFail (F : Phase config pid w₀ sent P view) (hP : P h l)
    (hcause : Ever (ExitNotice w₀) l ∨ sent ≠ []) :
    (childWaitOrFail fuel).Ensures (ledger config pid w₀) h l fun r h' l' => match r with
      | .ok r => h' = h.reaped ∧ ∃ st : RawExitStatus × Rusage,
        Reaped config pid sent st l' ∧ r = (st.1, rusageToResourceUsage st.2)
      | .error _ => h' = h ∧ P h l' ∧ Ever (WaitFailed pid) l' := by
  simp only [Procguard.childWaitOrFail, Act.ensures_bind]
  refine (F.childWait hP hcause).mono fun r h' l' hr => ?_
  rcases r with _ | e | _
  · exact hr.elim
  · cases e <;> exact hr
  · exact hr

/-- The process the kernel no longer knows. -/
theorem reapGone (F : Phase config pid w₀ sent P view) (a : WaitArgs) (hP : P h l)
    (hexit : Ever (ExitNotice w₀) l) (hset : (watch w₀ l).Settled) :
    (reapGone fuel).Ensures (ledger config pid w₀) h l (Waited config pid w₀ a sent P) := by
  refine reapGone_ensures
    (fun _ l => P h l ∧ Ever (ExitNotice w₀) l ∧ (watch w₀ l).Settled) (F.live hP) ?_ ?_
    fun _ _ => trivial
  · refine (F.asks_wait4NoHang hP).mono fun r hr => ?_
    match r, hr with
    | .ok (some st), hr => exact ⟨st, hr, rfl, rfl⟩
    | .ok none, hr => exact ⟨hr, .inr hexit, hset⟩
    | .error _, hr => exact ⟨hr, .inr hexit, hset⟩
  · rintro n l ⟨hP, hexit, hset⟩
    refine (F.asks_wait4 hP (.inl hexit)).mono fun r hr => ?_
    cases r with
    | ok st => exact ⟨st, hr, rfl, rfl⟩
    | error err =>
      dsimp only
      split
      · exact ⟨hr.1, .inr hexit, hset⟩
      · next hne =>
        split
        · next hchild => exact ⟨hr.1, .inr (.inl hchild), hset⟩
        · exact fun _ => ⟨hr.1, .inr (hr.2 hne)⟩

/-- What the whole wait needs: also that the throttle's checks are harmless. -/
theorem inert (F : Phase config pid w₀ sent P view) (fuel : Nat) {a : WaitArgs}
    (hupdate : ∀ h l ctx nowNs, P h l → h.throttle = some ctx →
      (CpuThrottleState.update ctx.cfg nowNs).Ensures (ledger config pid w₀) ctx.state l
        fun _ st l' => P { h with throttle := some { ctx with state := st } } l') :
    Inert (ledger config pid w₀) w₀ fuel a (fun _ h l => P h l)
      (fun h l => P h l ∧ Ever (ExitNotice w₀) l) (Waited config pid w₀ a sent P) where
  cut _ _ _ := trivial
  look _ _ _ _ hP hq := F.asks_idle hP (idle_of_looks hq)
  line _ _ _ _ _ hP _ _ := F.asks_idle hP rfl
  kevent _ _ _ _ _ hP := (F.asks_idle hP rfl).mono fun _ hP' =>
    ⟨fun hnotice => ⟨hP', .inl hnotice⟩, fun _ => hP'⟩
  close _ _ _ hX := (F.asks_idle hX.1 rfl).mono fun _ hP' => ⟨hP', .inr hX.2⟩
  update _ h l ctx hP hctx := hupdate h l ctx _ hP hctx
  gone _ _ hX hset := F.reapGone a hX.1 hX.2 hset
  exited _ _ hX := by
    refine (F.childWaitOrFail hX.1 (.inl hX.2)).mono fun r h' l' hr => ?_
    match r, hr with
    | .ok _, ⟨_, st, hst, hr⟩ =>
      cases hr
      exact ⟨st, hst, rfl, rfl⟩
    | .error _, ⟨hh, hP', hfail⟩ =>
      cases hh
      exact ⟨hP', .inr hfail⟩
  verdict _ _ _ r hP hv hset _ := by
    cases r with
    | exited _ _ => exact hv.elim
    | timedOut _ => exact ⟨hP, hv, hset⟩
    | memoryLimitExceeded _ _ => exact ⟨hP, hv, hset⟩
    | receivedSignal _ => exact ⟨hP, hv, hset⟩
  fail _ _ _ _ hP hfatal := ⟨hP, .inl hfatal⟩

end Phase

/-- The state of the monitor itself. -/
theorem ownPhase (config : RunConfig) (pid : Int) (w₀ : Watch) (sent : List Int) :
    Phase config pid w₀ sent (Supervised config pid sent) id where
  supervised _ _ hs := hs
  child _ := rfl
  blank _ _ _ he hs := hs.blank he

/-- The state of a wait that leaves the throttle out. -/
theorem gracePhase (config : RunConfig) (pid : Int) (w₀ : Watch) (sent : List Int)
    (throttle : Option ThrottleContext) :
    Phase config pid w₀ sent
      (fun g l => g.throttle = none ∧ Supervised config pid sent { g with throttle } l)
      (fun g => { g with throttle }) where
  supervised _ _ hs := hs.2
  child _ := rfl
  blank _ _ _ he hs := ⟨hs.1, hs.2.blank he⟩

/-- The first wait: the throttle is at work, nothing has been sent. -/
theorem firstWait_ensures {a : WaitArgs} (hs : Supervised config pid [] h l)
    (hready : (watch w₀ l).Ready a) :
    (waitWithKqueue fuel a).Ensures (ledger config pid w₀) h l
      (Waited config pid w₀ a [] (Supervised config pid [])) :=
  ((ownPhase config pid w₀ []).inert fuel fun _ _ _ nowNs hs hctx =>
    update_supervised hs hctx nowNs).waitWithKqueue_ensures hs hready

/-- The wait of a grace period. -/
theorem graceWait_ensures {killAfter : Duration} {confine : Confine}
    (hs : Supervised config pid sent h l) (hset : (watch w₀ l).Settled) :
    (graceWait fuel pid killAfter confine).Ensures (ledger config pid w₀) h l
      (Waited config pid w₀ { pid, timeout := killAfter, confine } sent
        (Supervised config pid sent)) := by
  simp only [graceWait, Act.ensures_focus]
  have F := gracePhase config pid w₀ sent h.throttle
  have hready : (watch w₀ l).Ready { pid, timeout := killAfter, confine } := by
    refine ⟨hset.1, fun _ => rfl, ?_, ?_, ?_⟩ <;>
    · intro hl
      rw [hset.2] at hl
      cases hl
  have hs' : ({ child := h.child } : Handles).throttle = none ∧
      Supervised config pid sent { child := h.child, throttle := h.throttle } l := ⟨rfl, hs⟩
  refine ((F.inert fuel fun g _ _ _ hg hctx => ?_).waitWithKqueue_ensures hs' hready).mono
    fun r g l' hr => ?_
  · rw [hg.1] at hctx
    cases hctx
  · match r, hr with
    | .ok (.exited _ _), hr => exact hr
    | .ok (.timedOut _), ⟨⟨_, hs'⟩, hr⟩ => exact ⟨hs', hr⟩
    | .ok (.memoryLimitExceeded _ _), ⟨⟨_, hs'⟩, hr⟩ => exact ⟨hs', hr⟩
    | .ok (.receivedSignal _), ⟨⟨_, hs'⟩, hr⟩ => exact ⟨hs', hr⟩
    | .error _, ⟨⟨_, hs'⟩, hr⟩ => exact ⟨hs', hr⟩

end waits

/-! ## How a run ends -/

/-- How the child ended, as the result reports it. -/
def RunResult.report : RunResult → Option RawExitStatus × Option ResourceUsage
  | .completed status rusage => (some status, some rusage)
  | .timedOut _ _ status rusage _ _ | .memoryLimitExceeded _ _ status rusage _ _
  | .signalForwarded _ status rusage => (status, rusage)

/-- The signals sent to a child that was told to terminate, newest first. -/
def terminationSends (config : RunConfig) (killed : Bool) : List Int :=
  if killed then [Signal.sigkill.asRaw, config.signal.asRaw] else [config.signal.asRaw]

/-- The result fits the signals sent, newest first. -/
def RunResult.Fits (config : RunConfig) (sent : List Int) : RunResult → Prop
  | .completed _ _ => sent = []
  | .timedOut signal killed _ _ hook _ => signal = config.signal ∧
    sent = terminationSends config killed ∧ hook.isSome = config.onTimeout.isSome
  | .memoryLimitExceeded signal killed _ _ _ _ => signal = config.signal ∧
    sent = terminationSends config killed
  | .signalForwarded signal _ _ => sent = [signal.asRaw] ∨
    sent = [signal.asRaw, config.signal.asRaw]

/-- The result reports the one wait on the child that succeeded, or that it failed. -/
def RunResult.Reports (r : RunResult) (pid : Int) (l : Trace) : Prop :=
  (∃ st, reaps pid l = [st] ∧ r.report = (some st.1, some (rusageToResourceUsage st.2))) ∨
    reaps pid l = [] ∧ r.report = (none, none) ∧ Ever (WaitFailed pid) l

/-- What the result of the monitor says of the log. -/
def Told (config : RunConfig) (pid : Int) (w₀ : Watch) :
    Except TimeoutError RunResult → Trace → Prop
  | .ok r, l => r.Fits config (sends config.foreground l) ∧ r.Reports pid l
  | .error _, l => Ever (Fatal w₀) l ∨ Ever (WaitFailed pid) l

/-- The monitor is done, the throttle is still to be dropped. -/
structure Ended (config : RunConfig) (pid : Int) (w₀ : Watch)
    (r : Except TimeoutError RunResult) (h : Handles) (l : Trace) : Prop where
  told : Told config pid w₀ r l
  unreaped : ∀ ctx, h.throttle = some ctx → ctx.state.suspended = true →
    ctx.state.pid = pid ∧ reaps pid l = []
  held : heldStopped l = true → Ever ThrottleLost l ∨ reaps pid l ≠ [] ∨
    ∃ ctx, h.throttle = some ctx ∧ (ctx.state.suspended && !ctx.state.processExited) = true

section endings
variable {config : RunConfig} {pid : Int} {w₀ : Watch} {fuel : Nat} {sent : List Int}
  {h : Handles} {l : Trace}

/-- A way out with the child not reaped. -/
theorem Supervised.ended (hs : Supervised config pid sent h l)
    {r : Except TimeoutError RunResult} (htold : Told config pid w₀ r l) :
    Ended config pid w₀ r h l where
  told := htold
  unreaped ctx hctx _ := ⟨hs.own ctx hctx, hs.unreaped⟩
  held hst := by
    rcases hs.held hst with hlost | ⟨ctx, hctx, hsus⟩
    · exact .inl hlost
    · cases hx : ctx.state.processExited with
      | true => exact .inl (hs.lost ctx hctx hx)
      | false => exact .inr (.inr ⟨ctx, hctx, by rw [hsus, hx]; rfl⟩)

/-- The child has been reaped, and the throttle knows. -/
theorem Reaped.ended {st : RawExitStatus × Rusage} (hst : Reaped config pid sent st l)
    {r : RunResult} (hfits : r.Fits config sent)
    (hreport : r.report = (some st.1, some (rusageToResourceUsage st.2))) :
    Ended config pid w₀ (.ok r) h.markExited l where
  told := ⟨by rw [hst.sent_eq]; exact hfits, .inl ⟨st, hst.reaped, hreport⟩⟩
  unreaped ctx hctx hsus := by
    obtain ⟨c, -, rfl⟩ := Option.map_eq_some_iff.mp hctx
    cases hsus
  held _ := .inr (.inl (by rw [hst.reaped]; exact List.cons_ne_nil _ _))

end endings

/-! ## The steps of the monitor -/

section steps
variable {config : RunConfig} {pid : Int} {w₀ : Watch} {fuel : Nat} {sent : List Int}
  {h : Handles} {l : Trace}

theorem monitorLine_ensures (line : String) (hs : Supervised config pid sent h l) :
    (monitorLine config line).Ensures (ledger config pid w₀) h l fun r h' l' =>
      r = .ok () ∧ Supervised config pid sent h' l' ∧ Unmoved w₀ l l' := by
  refine Act.ensures_ite (fun _ => ?_) fun _ => ⟨rfl, hs, .refl w₀ l⟩
  simp only [Act.ensures_bind, Act.ensures_call, Act.ensures_pure]
  exact (asks_idle hs rfl).mono fun _ hs' => ⟨trivial, hs', .event (.inr rfl)⟩

/-- The hook's calls are its own. -/
theorem runHook_ensures (hs : Supervised config pid sent h l) :
    (runHook fuel config pid).Ensures (ledger config pid w₀) h l fun r h' l' =>
      (∃ hook, r = .ok hook ∧ hook.isSome = config.onTimeout.isSome) ∧
      Supervised config pid sent h' l' ∧ Unmoved w₀ l l' := by
  unfold runHook
  cases config.onTimeout with
  | none => exact ⟨⟨none, rfl, rfl⟩, hs, .refl w₀ l⟩
  | some cmd =>
    simp only [Act.ensures_bind, Act.ensures_exec, Act.ensures_pure]
    have hask := (asking_runOnTimeoutHook fuel cmd pid config).mono fun q hq =>
      @Req.Passive.of_hook q hq.1
    refine (hask.ensures (K := ledger config pid w₀)
      (fun l' => Supervised config pid sent h l' ∧ Unmoved w₀ l l') ?_ (fun _ _ => trivial)
      ⟨hs, .refl w₀ l⟩).mono fun r l' hr => ⟨⟨some r, rfl, rfl⟩, hr⟩
    rintro q l' hq ⟨hs', hm⟩ a -
    exact ⟨.of_idle hq.idle, hs'.blank (.of_idle a hq.idle), hm.trans (.event hq.unwatched)⟩

theorem resumeThrottle_ensures (hs : Supervised config pid sent h l) :
    resumeThrottle.Ensures (ledger config pid w₀) h l fun r h' l' =>
      r = .ok () ∧ Released l' ∧ Unmoved w₀ l l' ∧ Supervised config pid sent h' l' := by
  simp only [resumeThrottle, onThrottle, Act.ensures_bind, Act.ensures_get]
  cases hctx : h.throttle with
  | none =>
    refine ⟨rfl, fun hst => ?_, .refl w₀ l, hs⟩
    rcases hs.held hst with hlost | ⟨ctx, hctx', -⟩
    · exact hlost
    · rw [hctx] at hctx'
      cases hctx'
  | some ctx =>
    simp only [Act.ensures_focus]
    exact resume_released hs hctx

/-- A `kill` that counts as the signal `send_signal` was asked for, or as its fallback. -/
theorem killProcess_ensures {sig : Signal} (hs : Supervised config pid sent h l)
    (hreleased : Released l) (hreason : config.foreground = true →
      Reason config pid w₀ sig.asRaw l sent) :
    (killProcess pid sig).Ensures (ledger config pid w₀) h l fun r h' l' =>
      Supervised config pid ((if config.foreground then [sig.asRaw] else []) ++ sent) h' l' ∧
      Unmoved w₀ l l' ∧ match r with
        | .ok _ => True
        | .error _ => Ever (Fatal w₀) l' := by
  simp only [killProcess, Act.ensures_bind, Act.ensures_call]
  intro r _
  have hsend : (monitorSend config.foreground
      ⟨⟨.monitor, .kill pid sig.asRaw⟩, r⟩).toList = if config.foreground then [sig.asRaw] else [] := by
    cases hf : config.foreground <;> rfl
  have hs' := hs.event (e := ⟨⟨.monitor, .kill pid sig.asRaw⟩, r⟩) rfl rfl fun _ => hreleased
  rw [hsend] at hs'
  refine ⟨.of_send (.inl rfl) hs.unreaped hreleased ?_, ?_⟩
  · cases hf : config.foreground with
    | true => exact .inl (by rw [← hf, hs.sent_eq]; exact hreason hf)
    | false => exact .inr rfl
  · cases r with
    | ok _ => exact ⟨hs', .event (.inr rfl), trivial⟩
    | error err =>
      dsimp only
      split
      · exact ⟨hs', .event (.inr rfl), trivial⟩
      · next hne => exact ⟨hs', .event (.inr rfl), .inl hne⟩

theorem sendSignal_ensures {sig : Signal} (hs : Supervised config pid sent h l)
    (hreleased : Released l) (hreason : Reason config pid w₀ sig.asRaw l sent) :
    (sendSignal pid sig config.foreground).Ensures (ledger config pid w₀) h l fun r h' l' =>
      Supervised config pid (sig.asRaw :: sent) h' l' ∧ Unmoved w₀ l l' ∧ match r with
        | .ok _ => True
        | .error _ => Ever (Fatal w₀) l' := by
  unfold sendSignal
  cases hf : config.foreground with
  | true =>
    rw [if_pos rfl]
    refine (killProcess_ensures hs hreleased fun _ => hreason).mono fun r h' l' hr => ?_
    rw [hf] at hr
    exact hr
  | false =>
    rw [if_neg (by decide)]
    simp only [Act.ensures_bind, Act.ensures_call]
    intro r _
    -- the signal to the group is the one that is counted
    have hs' : Supervised config pid (sig.asRaw :: sent) h
        (⟨⟨.monitor, .killpg pid sig.asRaw⟩, r⟩ :: l) :=
      hs.event (e := ⟨⟨.monitor, .killpg pid sig.asRaw⟩, r⟩) rfl rfl fun _ => hreleased
    refine ⟨.of_send (.inr rfl) hs.unreaped hreleased (.inl (by rw [hs.sent_eq]; exact hreason)), ?_⟩
    cases r with
    | ok _ => exact ⟨hs', .event (.inr rfl), trivial⟩
    | error err =>
      dsimp only
      split
      · -- the group is gone: the process itself, which is not counted again
        have hreleased' : Released (⟨⟨.monitor, .killpg pid sig.asRaw⟩, .error err⟩ :: l) :=
          fun hst => .inr (hreleased hst)
        have hreason' : config.foreground = true → Reason config pid w₀ sig.asRaw
            (⟨⟨.monitor, .killpg pid sig.asRaw⟩, .error err⟩ :: l) (sig.asRaw :: sent) := by
          intro h
          rw [hf] at h
          cases h
        refine (killProcess_ensures hs' hreleased' hreason').mono fun r h' l' hr => ?_
        · rw [hf] at hr
          exact ⟨hr.1, Unmoved.trans (.event (.inr rfl)) hr.2.1, hr.2.2⟩
      · next hne => exact ⟨hs', .event (.inr rfl), .inl hne⟩

/-- Resume the child, send it a signal and go on. -/
theorem resumeAndSend_ensures {sig : Signal} {rest : SuperAct RunResult}
    (hs : Supervised config pid sent h l) (hreason : Reason config pid w₀ sig.asRaw l sent)
    (hrest : ∀ h' l', Supervised config pid (sig.asRaw :: sent) h' l' → Unmoved w₀ l l' →
      rest.Ensures (ledger config pid w₀) h' l' (Ended config pid w₀)) :
    (do
      resumeThrottle
      sendSignal pid sig config.foreground
      rest).Ensures (ledger config pid w₀) h l (Ended config pid w₀) := by
  rw [Act.ensures_bind]
  refine (resumeThrottle_ensures hs).mono fun r h₁ l₁ hr => ?_
  obtain ⟨rfl, hreleased, hm₁, hs₁⟩ := hr
  dsimp only
  rw [Act.ensures_bind]
  refine (sendSignal_ensures hs₁ hreleased (hreason.unmoved hm₁)).mono fun r h₂ l₂ hr => ?_
  obtain ⟨hs₂, hm₂, hr⟩ := hr
  cases r with
  | ok _ => exact hrest h₂ l₂ hs₂ (hm₁.trans hm₂)
  | error _ => exact hs₂.ended (.inl hr)

end steps

/-! ## The branches after the first wait -/

section branches
variable {config : RunConfig} {pid : Int} {w₀ : Watch} {fuel : Nat} {sent : List Int}
  {h : Handles} {l : Trace}

theorem markProcessExited_bind {r : RunResult} :
    (markProcessExited >>= fun _ => pure r).Ensures (ledger config pid w₀) h l
      (Ended config pid w₀) ↔ Ended config pid w₀ (.ok r) h.markExited l := Iff.rfl

theorem reapAs_ensures {result : RawExitStatus → ResourceUsage → RunResult}
    (hs : Supervised config pid sent h l) (hsent : sent ≠ [])
    (hfits : ∀ status rusage, (result status rusage).Fits config sent)
    (hreport : ∀ status rusage, (result status rusage).report = (some status, some rusage)) :
    (reapAs fuel result).Ensures (ledger config pid w₀) h l (Ended config pid w₀) := by
  rw [reapAs, Act.ensures_bind]
  refine ((ownPhase config pid w₀ sent).childWaitOrFail hs (.inr hsent)).mono fun r h' l' hr => ?_
  match r, hr with
  | .ok _, ⟨_, st, hst, hr⟩ =>
    cases hr
    exact markProcessExited_bind.mpr (hst.ended (hfits _ _) (hreport _ _))
  | .error _, ⟨hh, hs', hfail⟩ =>
    cases hh
    exact hs'.ended (.inr hfail)

theorem killAndReap_ensures {result : RawExitStatus → ResourceUsage → RunResult}
    (hs : Supervised config pid [config.signal.asRaw] h l)
    (hfits : ∀ status rusage, (result status rusage).Fits config (terminationSends config true))
    (hreport : ∀ status rusage, (result status rusage).report = (some status, some rusage)) :
    (killAndReap fuel config pid result).Ensures (ledger config pid w₀) h l
      (Ended config pid w₀) := by
  refine resumeAndSend_ensures hs ⟨rfl, .inl rfl⟩ fun h' l' hs' _ => ?_
  exact reapAs_ensures hs' (List.cons_ne_nil _ _) hfits hreport

theorem forwardSignal_ensures {sig : Signal} (hs : Supervised config pid sent h l)
    (hreason : Reason config pid w₀ sig.asRaw l sent)
    (hsent : sent = [] ∨ sent = [config.signal.asRaw]) :
    (forwardSignal fuel config pid sig).Ensures (ledger config pid w₀) h l
      (Ended config pid w₀) := by
  have hfits : ∀ status rusage,
      (RunResult.signalForwarded sig status rusage).Fits config (sig.asRaw :: sent) := by
    intro status rusage
    rcases hsent with rfl | rfl
    · exact .inl rfl
    · exact .inr rfl
  simp only [forwardSignal]
  rw [Act.ensures_bind]
  refine (monitorLine_ensures _ hs).mono fun r h₁ l₁ hr => ?_
  obtain ⟨rfl, hs₁, hm₁⟩ := hr
  refine resumeAndSend_ensures hs₁ (hreason.unmoved hm₁) fun h₂ l₂ hs₂ _ => ?_
  rw [Act.ensures_bind]
  refine ((ownPhase config pid w₀ (sig.asRaw :: sent)).childWait hs₂
    (.inr (List.cons_ne_nil _ _))).mono fun r h₃ l₃ hr => ?_
  match r, hr with
  | .ok (.ok _), ⟨_, st, hst, hr⟩ =>
    cases hr
    exact markProcessExited_bind.mpr (hst.ended (hfits _ _) rfl)
  | .ok (.error _), ⟨_, hs₃, hfail⟩ =>
    -- the wait failed: the result says nothing of the child's end
    refine markProcessExited_bind.mpr ⟨?_, ?_, ?_⟩
    · refine ⟨?_, .inr ⟨hs₃.unreaped, rfl, hfail⟩⟩
      rw [hs₃.sent_eq]
      exact hfits _ _
    · intro ctx hctx hsus
      obtain ⟨c, -, rfl⟩ := Option.map_eq_some_iff.mp hctx
      cases hsus
    · exact fun hst => .inl (hs₃.released (List.cons_ne_nil _ _) hst)

/-- The child ended in the grace period. -/
theorem Waited.graceEnded {a : WaitArgs} {status : RawExitStatus} {rusage : ResourceUsage}
    {r : RunResult} (hr : Waited config pid w₀ a sent (Supervised config pid sent)
      (.ok (.exited status rusage)) h l)
    (hfits : r.Fits config sent) (hreport : r.report = (some status, some rusage)) :
    Ended config pid w₀ (.ok r) h.markExited l := by
  obtain ⟨st, hst, rfl, rfl⟩ := hr
  exact hst.ended hfits hreport

theorem onMemoryLimit_ensures {limitBytes actualBytes : Nat}
    (hs : Supervised config pid [] h l) (hdue : Due config pid w₀ l)
    (hset : (watch w₀ l).Settled) :
    (onMemoryLimit fuel config pid limitBytes actualBytes).Ensures (ledger config pid w₀) h l
      (Ended config pid w₀) := by
  have hsent : [config.signal.asRaw] ≠ [] := List.cons_ne_nil _ _
  simp only [onMemoryLimit]
  rw [Act.ensures_bind]
  refine (monitorLine_ensures _ hs).mono fun r h₁ l₁ hr => ?_
  obtain ⟨rfl, hs₁, hm₁⟩ := hr
  refine resumeAndSend_ensures hs₁ (.inl ⟨rfl, hdue.unmoved hm₁⟩) fun h₂ l₂ hs₂ hm₂ => ?_
  cases config.killAfter with
  | none => exact reapAs_ensures hs₂ hsent (fun _ _ => ⟨rfl, rfl⟩) fun _ _ => rfl
  | some killAfter =>
    have hset₂ : (watch w₀ l₂).Settled := by rw [hm₂.watch_eq, hm₁.watch_eq]; exact hset
    dsimp only
    rw [Act.ensures_bind]
    refine (graceWait_ensures hs₂ hset₂).mono fun r h₃ l₃ hr => ?_
    have hkill : ∀ hs₃ : Supervised config pid [config.signal.asRaw] h₃ l₃,
        (killAndReap fuel config pid fun status rusage =>
          .memoryLimitExceeded config.signal true (some status) (some rusage) limitBytes
            actualBytes).Ensures (ledger config pid w₀) h₃ l₃ (Ended config pid w₀) :=
      fun hs₃ => killAndReap_ensures hs₃ (fun _ _ => ⟨rfl, rfl⟩) fun _ _ => rfl
    match r, hr with
    | .ok (.exited _ _), hr =>
      exact markProcessExited_bind.mpr (hr.graceEnded ⟨rfl, rfl⟩ rfl)
    | .ok (.timedOut _), ⟨hs₃, _⟩ => exact hkill hs₃
    | .ok (.memoryLimitExceeded _ _), ⟨hs₃, _⟩ => exact hkill hs₃
    | .ok (.receivedSignal _), ⟨hs₃, _⟩ => exact hkill hs₃
    | .error _, ⟨hs₃, hfail⟩ => exact hs₃.ended hfail

theorem onTimeout_ensures {reason : TimeoutReason} (hs : Supervised config pid [] h l)
    (hdue : Due config pid w₀ l) (hset : (watch w₀ l).Settled) :
    (onTimeout fuel config pid reason).Ensures (ledger config pid w₀) h l
      (Ended config pid w₀) := by
  have hsent : [config.signal.asRaw] ≠ [] := List.cons_ne_nil _ _
  simp only [onTimeout]
  rw [Act.ensures_bind]
  refine (monitorLine_ensures _ hs).mono fun r h₁ l₁ hr => ?_
  obtain ⟨rfl, hs₁, hm₁⟩ := hr
  dsimp only
  rw [Act.ensures_bind]
  refine (runHook_ensures hs₁).mono fun r h₂ l₂ hr => ?_
  obtain ⟨⟨hook, rfl, hhook⟩, hs₂, hm₂⟩ := hr
  dsimp only
  rw [Act.ensures_bind]
  refine (monitorLine_ensures _ hs₂).mono fun r h₃ l₃ hr => ?_
  obtain ⟨rfl, hs₃, hm₃⟩ := hr
  have hm := (hm₁.trans hm₂).trans hm₃
  refine resumeAndSend_ensures hs₃ (.inl ⟨rfl, hdue.unmoved hm⟩) fun h₄ l₄ hs₄ hm₄ => ?_
  cases config.killAfter with
  | none => exact reapAs_ensures hs₄ hsent (fun _ _ => ⟨rfl, rfl, hhook⟩) fun _ _ => rfl
  | some killAfter =>
    have hset₄ : (watch w₀ l₄).Settled := by rw [hm₄.watch_eq, hm.watch_eq]; exact hset
    dsimp only
    rw [Act.ensures_bind]
    refine (graceWait_ensures hs₄ hset₄).mono fun r h₅ l₅ hr => ?_
    -- both ways out of the grace period without an exit end in SIGKILL
    have hkill : ∀ hs₅ : Supervised config pid [config.signal.asRaw] h₅ l₅,
        (monitorLine config "timeout: sending signal SIGKILL to command" >>= fun _ =>
          killAndReap fuel config pid fun status rusage =>
            .timedOut config.signal true (some status) (some rusage) hook reason).Ensures
          (ledger config pid w₀) h₅ l₅ (Ended config pid w₀) := by
      intro hs₅
      rw [Act.ensures_bind]
      refine (monitorLine_ensures _ hs₅).mono fun r h₆ l₆ hr => ?_
      obtain ⟨rfl, hs₆, -⟩ := hr
      exact killAndReap_ensures hs₆ (fun _ _ => ⟨rfl, rfl, hhook⟩) fun _ _ => rfl
    match r, hr with
    | .ok (.exited _ _), hr =>
      exact markProcessExited_bind.mpr (hr.graceEnded ⟨rfl, rfl, hhook⟩ rfl)
    | .ok (.timedOut _), ⟨hs₅, _⟩ => exact hkill hs₅
    | .ok (.memoryLimitExceeded _ _), ⟨hs₅, _⟩ => exact hkill hs₅
    | .ok (.receivedSignal sig), ⟨hs₅, hbyte, _⟩ =>
      exact forwardSignal_ensures hs₅ ⟨rfl, .inr ⟨sig, rfl, hbyte⟩⟩ (.inr rfl)
    -- the wait itself failed, after the signal was sent
    | .error _, ⟨hs₅, hfail⟩ => exact hs₅.ended hfail

/-- What the monitor does with the result of the first wait. -/
theorem handleResult_ensures {startNs : Nat} {r : WaitResult}
    (hr : Waited config pid w₀ (waitArgsOf config pid startNs) []
      (Supervised config pid []) (.ok r) h l) :
    (handleResult fuel config pid r).Ensures (ledger config pid w₀) h l
      (Ended config pid w₀) := by
  match r, hr with
  | .exited _ _, ⟨st, hst, hstatus, hrusage⟩ =>
    cases hstatus
    cases hrusage
    exact markProcessExited_bind.mpr (hst.ended rfl rfl)
  | .timedOut _, ⟨hs, hv, hset⟩ => exact onTimeout_ensures hs (.of_timeout hv) hset
  | .memoryLimitExceeded _ _, ⟨hs, hv, hset⟩ => exact onMemoryLimit_ensures hs (.of_memory hv) hset
  | .receivedSignal sig, ⟨hs, hv, _⟩ =>
    exact forwardSignal_ensures hs (.inr ⟨sig, rfl, hv⟩) (.inl rfl)

end branches

/-! ## The whole run -/

/-- The automaton before a run of the monitor, whose first reading stamps the activity. -/
def Watch.ofConfig (config : RunConfig) : Watch where
  pending := true
  stdin := config.stdinTimeout.isSome
  draining := config.stdinTimeout.isSome && !config.stdinPassthrough

/-- A log with nothing of the run in it yet. -/
structure Fresh (config : RunConfig) (pid : Int) (l : Trace) : Prop where
  sent_eq : sends config.foreground l = []
  unreaped : reaps pid l = []
  held : heldStopped l = false
  watch_eq : watch (Watch.ofConfig config) l = Watch.ofConfig config

theorem Fresh.nil (config : RunConfig) (pid : Int) : Fresh config pid [] := ⟨rfl, rfl, rfl, rfl⟩

/-- The monitor has returned. -/
structure Closed (config : RunConfig) (pid : Int) (w₀ : Watch)
    (r : Except TimeoutError RunResult) (l : Trace) : Prop where
  told : Told config pid w₀ r l
  released : heldStopped l = true → Ever ThrottleLost l ∨ reaps pid l ≠ []

section run
variable {config : RunConfig} {pid : Int} {w₀ : Watch} {fuel : Nat} {h : Handles} {l : Trace}

theorem Told.throttle {call : Call} {a : Ans ⟨.throttle, call⟩}
    {r : Except TimeoutError RunResult} (ht : Told config pid w₀ r l) :
    Told config pid w₀ r (⟨⟨.throttle, call⟩, a⟩ :: l) := by
  cases r with
  | error _ => exact ht.imp .inr .inr
  | ok r =>
    obtain ⟨hfits, hreports⟩ := ht
    refine ⟨?_, ?_⟩
    · rw [sends_cons, monitorSend_throttle]
      exact hfits
    · rw [RunResult.Reports, reaps_cons, reapOf_throttle]
      exact hreports.imp_right fun h => ⟨h.1, h.2.1, .inr h.2.2⟩

/-- The drop of the throttle continues a child that is still held stopped. -/
theorem Ended.drop {r : Except TimeoutError RunResult} (he : Ended config pid w₀ r h l) :
    (dropThrottle h).Ensures (ledger config pid w₀) l fun _ l' => Closed config pid w₀ r l' := by
  unfold dropThrottle
  cases hctx : h.throttle with
  | none =>
    refine ⟨he.told, fun hst => ?_⟩
    rcases he.held hst with hlost | hreap | ⟨ctx, hctx', -⟩
    · exact .inl hlost
    · exact .inr hreap
    · rw [hctx] at hctx'
      cases hctx'
  | some ctx =>
    dsimp only
    rw [Prog.ensures_bind, CpuThrottleState.drop, Prog.ensures_bind]
    have hresume : CpuThrottleState.resume.Ensures (ledger config pid w₀) ctx.state l
        fun _ _ l' => Closed config pid w₀ r l' := by
      rw [CpuThrottleState.ensures_resume]
      split
      -- a throttle that says suspended is that of a child not reaped yet
      · next hsus =>
        intro a _
        obtain ⟨hown, hunreaped⟩ := he.unreaped ctx hctx (Bool.and_eq_true _ _ ▸ hsus).1
        refine ⟨.of_throttle hown hunreaped fun h => absurd h (by decide), he.told.throttle, fun hst => ?_⟩
        cases a with
        | ok _ =>
          have hno := heldStopped_continued ctx.state.pid l
          rw [hst] at hno
          cases hno
        | error _ => exact .inl (.inl trivial)
      · next hno =>
        refine ⟨he.told, fun hst => ?_⟩
        rcases he.held hst with hlost | hreap | ⟨ctx', hctx', hsus⟩
        · exact .inl hlost
        · exact .inr hreap
        · rw [hctx] at hctx'
          cases hctx'
          exact absurd hsus hno
    exact hresume

theorem attachThrottle_ensures {startNs : Nat} (hs : Supervised config pid [] h l)
    (hnone : h.throttle = none) :
    (attachThrottle config pid startNs).Ensures (ledger config pid w₀) h l fun r h' l' =>
      r = .ok () ∧ Supervised config pid [] h' l' ∧ Unmoved w₀ l l' := by
  unfold attachThrottle
  cases config.cpuThrottle with
  | none => exact ⟨rfl, hs, .refl w₀ l⟩
  | some cfg =>
    dsimp only
    rw [Act.ensures_bind, Act.ensures_exec, CpuThrottleState.new]
    intro r hr
    obtain ⟨hg, hs'⟩ := asks_idle hs (q := ⟨.throttle, .procPidRusage pid⟩) rfl r hr
    refine ⟨hg, ?_⟩
    generalize hl' : (⟨⟨.throttle, .procPidRusage pid⟩, r⟩ :: l : Trace) = l' at hs' ⊢
    have hm : Unmoved w₀ l l' := by rw [← hl']; exact .event (.inr rfl)
    cases r with
    | some info =>
      refine ⟨rfl, ?_, hm⟩
      refine ⟨hs'.child_pid, hs'.live, hs'.unreaped, hs'.sent_eq, ?_, ?_, fun hst => ?_, hs'.released⟩
      · rintro _ ⟨⟩
        rfl
      · rintro _ ⟨⟩ ⟨⟩
      · rcases hs'.held hst with hlost | ⟨ctx, hctx, -⟩
        · exact .inl hlost
        · rw [hnone] at hctx
          cases hctx
    | none =>
      dsimp only
      split
      · exact ⟨rfl, hs', hm⟩
      · intro a ha
        obtain ⟨hg', hs''⟩ := asks_idle hs' (q := ⟨.monitor, .eprintln _⟩) rfl a ha
        exact ⟨hg', rfl, hs'', hm.trans (.event (.inr rfl))⟩

/-- The first wait finds the automaton ready. -/
theorem waitArgsOf_ready (config : RunConfig) (pid : Int) (startNs : Nat) :
    ((Watch.ofConfig config).tick startNs).Ready (waitArgsOf config pid startNs) where
  settled := rfl
  again := nofun
  stdin _ := by cases h : config.stdinTimeout <;> simp [Watch.ofConfig, Watch.tick, waitArgsOf, h]
  draining _ := by
    cases h : config.stdinTimeout with
    | none => simp [Watch.ofConfig, Watch.tick, waitArgsOf, h]
    | some d => cases hp : config.stdinPassthrough <;> simp [Watch.ofConfig, Watch.tick, waitArgsOf, h, hp]
  activity _ s hs := by
    obtain ⟨d, -, rfl⟩ := Option.map_eq_some_iff.mp hs
    rfl

theorem supervise_ensures {startNs : Nat} (hs : Supervised config pid [] h l)
    (hnone : h.throttle = none)
    (hready : (watch w₀ l).Ready (waitArgsOf config pid startNs)) :
    (supervise fuel config pid startNs).Ensures (ledger config pid w₀) h l
      (Ended config pid w₀) := by
  simp only [supervise]
  rw [Act.ensures_bind]
  refine (attachThrottle_ensures hs hnone).mono fun r h₁ l₁ hr => ?_
  obtain ⟨rfl, hs₁, hm₁⟩ := hr
  dsimp only
  rw [Act.ensures_bind]
  refine (firstWait_ensures hs₁ (by rw [hm₁.watch_eq]; exact hready)).mono fun r h₂ l₂ hr => ?_
  match r, hr with
  | .ok _, hr => exact handleResult_ensures hr
  | .error _, ⟨hs₂, hfail⟩ => exact hs₂.ended hfail

/-- The monitor keeps the ledger in every run. -/
theorem monitorWithTimeout_ensures (hl : Fresh config pid l) :
    (monitorWithTimeout fuel config).Ensures (ledger config pid (Watch.ofConfig config))
      { child := { pid } } l fun r _ l' => Closed config pid (Watch.ofConfig config) r l' := by
  have hs : Supervised config pid [] { child := { pid } } l :=
    ⟨rfl, rfl, hl.unreaped, hl.sent_eq, nofun, nofun, fun hst => absurd (hl.held.symm.trans hst) nofun,
      fun hne => absurd rfl hne⟩
  simp only [monitorWithTimeout, Act.ensures_bind, Act.ensures_get, ensures_now]
  refine asksClock_intro (Watch.ofConfig config) fun e t hreq hfail _ hw hr => ?_
  obtain ⟨q, a⟩ := e
  change q = _ at hreq
  have hidle : q.idle = true := by
    rw [hreq]
    cases config.confine <;> rfl
  have hs₁ := hs.blank (.of_idle a hidle)
  refine ⟨.of_idle hidle, ?_⟩
  cases t with
  | none =>
    refine ⟨.inl (.inl ?_), fun hst => ?_⟩
    · rw [hfail rfl]
      rfl
    · rw [heldStopped_of_none (Blank.of_idle a hidle).deliver, hl.held] at hst
      cases hst
  | some startNs =>
    refine Act.ensures_onExit.mpr ((supervise_ensures hs₁ rfl ?_).mono fun r h' l' hr => hr.drop)
    rw [hw, hl.watch_eq]
    exact waitArgsOf_ready config pid startNs

end run

end Procguard
