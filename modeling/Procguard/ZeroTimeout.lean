import Procguard.Pacing

/- The bypass of `run_command` for a zero timeout. Without a timeout the run is one wait for
   the child, whatever else is configured; `zero_timeout_agrees` says when this makes no
   difference, and `zero_timeout_ignores_limit` shows that it can. -/
namespace Procguard
open Interact

/-! ## Heartbeats that are not due -/

/-- The monitor waits, and its clock has come to the first heartbeat. -/
def BeatDue (config : RunConfig) (l : Trace) : Prop :=
  config.quiet = false ∧ (watch (Watch.ofConfig config) l).looping = true ∧
    ∃ d ∈ config.heartbeat, 0 < durationToNs d ∧
      deadlineReached (watch (Watch.ofConfig config) l).clock
        (advanceNs (watch (Watch.ofConfig config) l).start (durationToNs d)) = true

instance (config : RunConfig) (l : Trace) : Decidable (BeatDue config l) :=
  inferInstanceAs (Decidable (_ ∧ _ ∧ _))

/-- The first heartbeat is an interval after the start of the wait. -/
theorem Beat.due {config : RunConfig} {e : Event} {l : Trace}
    (hb : Beat config (Watch.ofConfig config) e l)
    (hlooping : (watch (Watch.ofConfig config) l).looping = true) : BeatDue config l := by
  obtain ⟨d, hinterval, hpos, hspaced⟩ := hb.inTurn
  refine ⟨hb.loud, hlooping, d, hinterval, hpos, ?_⟩
  have hafter : Spacing.After (durationToNs d) u64Max (watch (Watch.ofConfig config) l).clock
      (watch (Watch.ofConfig config) l).start :=
    (List.pairwise_cons.mp (List.isChain_iff_pairwise.mp hspaced)).1 _
      (List.mem_append_right _ List.mem_cons_self)
  simpa [deadlineReached, advanceNs, satAdd, Spacing.After] using hafter

/-- What is printed during the wait are heartbeats, and each of them was due. -/
theorem heartbeats_not_due {config : RunConfig} {l : Trace}
    (hlines : Always (fun e l => heartbeatOf (watch (Watch.ofConfig config) l) e ≠ none →
      BeatLine e) l)
    (hguar : Always (DutyGuar config (Watch.ofConfig config)) l)
    (hnotdue : ¬ Ever (fun _ before => BeatDue config before) l) :
    heartbeats (Watch.ofConfig config) l = [] := by
  induction l with
  | nil => rfl
  | cons e l ih =>
    rw [heartbeats, ih hlines.2 hguar.2 fun h => hnotdue (.inr h), List.append_nil,
      Option.toList_eq_nil_iff]
    by_contra hbeat
    obtain ⟨elapsed, pid, hcall⟩ := hlines.1 hbeat
    obtain ⟨⟨caller, call⟩, a⟩ := e
    cases hcall
    cases caller with
    | monitor =>
      have hlooping : (watch (Watch.ofConfig config) l).looping = true := by
        by_contra hno
        exact hbeat (if_neg hno)
      have hduty : Req.duty ⟨.monitor, .eprintln (heartbeatLine elapsed pid)⟩ = some .heartbeat :=
        if_pos (isHeartbeat_line elapsed pid)
      exact hnotdue (.inl ((hguar.1.heartbeat hduty).due hlooping))
    | _ => exact hbeat rfl

/-! ## The two runs -/

/-- The spawn alone signals nobody and prints nothing. -/
theorem spawnFor_run (env : World) (command : String) (args : List String) (config : RunConfig)
    (w₀ : Watch) : ∃ r l, (spawnFor command args config).run env [] = (some r, l) ∧
      childSignals l = [] ∧ heartbeats w₀ l = [] ∧
      ∀ child, r = .ok child → (hasNul command || args.any hasNul) = false := by
  unfold spawnFor
  split
  · unfold spawnCommand
    split
    · exact ⟨_, _, rfl, rfl, rfl, nofun⟩
    · next hnul => exact ⟨_, _, rfl, rfl, rfl, fun _ _ => Bool.not_eq_true _ ▸ hnul⟩
  · unfold spawnCommandWithLimits
    split
    · exact ⟨_, _, rfl, rfl, rfl, nofun⟩
    · next hnul => exact ⟨_, _, rfl, rfl, rfl, fun _ _ => Bool.not_eq_true _ ▸ hnul⟩

theorem runCommand_failed {env : World} {fuel : Nat} {command : String} {args : List String}
    {config : RunConfig} {e : SpawnError} {l : Trace}
    (hspawn : (spawnFor command args config).run env [] = (some (.error e), l)) :
    (runCommand fuel command args config).run env [] = (some (.error (ofSpawnError e)), l) := by
  rw [runCommand, Prog.run_bind, hspawn]
  rfl

/-- A timely run with a timeout and the run without one, of the same command, spawn and
    ending, agree: the same result, the same signals and the same heartbeats. -/
theorem zero_timeout_agrees (env₀ env : World) (fuel : Nat) (command : String)
    (args : List String) (config : RunConfig) (pid : Int) (st : RawExitStatus × Rusage)
    (calls interruptions : Nat) (hcalls : calls < fuel) (hints : interruptions < fuel)
    (hspawn : ((spawnFor command args config).run env₀ []).1 =
      ((spawnFor command args config).run env []).1)
    (hspawned : ∀ child, ((spawnFor command args config).run env []).1 = some (.ok child) →
      Always (Timely config pid st calls interruptions)
        ((runCommand fuel command args config).run env []).2 ∧
      BudgetKept config ((runCommand fuel command args config).run env []).2 ∧
      ¬ Ever (fun _ before => BeatDue config before)
        ((runCommand fuel command args config).run env []).2 ∧
      Always (Ending pid st interruptions)
        ((runCommand fuel command args { config with timeout := .zero }).run env₀ []).2) :
    ((runCommand fuel command args { config with timeout := .zero }).run env₀ []).1 =
        ((runCommand fuel command args config).run env []).1 ∧
      ((runCommand fuel command args config).run env []).1.isSome = true ∧
      childSignals ((runCommand fuel command args { config with timeout := .zero }).run env₀ []).2 =
        childSignals ((runCommand fuel command args config).run env []).2 ∧
      heartbeats (Watch.ofConfig config)
          ((runCommand fuel command args { config with timeout := .zero }).run env₀ []).2 =
        heartbeats (Watch.ofConfig config) ((runCommand fuel command args config).run env []).2 := by
  obtain ⟨r, l, hrun, hsignals, hbeats, hnul⟩ :=
    spawnFor_run env command args config (Watch.ofConfig config)
  obtain ⟨r₀, l₀, hrun₀, hsignals₀, hbeats₀, -⟩ :=
    spawnFor_run env₀ command args config (Watch.ofConfig config)
  rw [hrun, hrun₀] at hspawn
  obtain rfl : r₀ = r := Option.some.inj hspawn
  cases r₀ with
  -- what was not started ends the same in both
  | error e =>
    have hzero : (spawnFor command args { config with timeout := .zero }).run env₀ [] =
        (some (.error e), l₀) := hrun₀
    rw [runCommand_failed hrun, runCommand_failed hzero]
    exact ⟨rfl, rfl, hsignals₀.trans hsignals.symm, hbeats₀.trans hbeats.symm⟩
  | ok child =>
    obtain ⟨htimely, hbudget, hnotdue, hending⟩ := hspawned child (by rw [hrun])
    have ho : Opening (Watch.ofConfig config) 0 [] := .nil _
    have hbounded : (runCommand fuel command args config).Ensures
        (timely config pid st calls interruptions) [] fun r l => Finished config st 1 r l :=
      runCommand_timely hcalls hints (hnul child rfl) ho
    have hzero : (runCommand fuel command args { config with timeout := .zero }).Ensures
        (ending pid st interruptions) [] fun r l => Finished config.bare st 1 r l :=
      runCommand_zero hints (hnul child rfl) ho
    obtain ⟨r, hr, hf⟩ := returns_of_ensures hbounded (fun _ => id) htimely
    obtain ⟨r₀, hr₀, hf₀⟩ := returns_of_ensures hzero (fun _ => id) hending
    -- the bare configuration has no budget to keep
    have hquiet : BudgetKept config.bare
        ((runCommand fuel command args { config with timeout := .zero }).run env₀ []).2 := nofun
    refine ⟨?_, by rw [hr]; rfl, ?_, ?_⟩
    · rw [hr, hr₀, hf.result, hf₀.result]
    · rw [hf.silent hbudget, hf₀.silent hquiet]
    · refine (hf₀.unheard (.inl rfl)).trans (heartbeats_not_due hf.lines ?_ hnotdue).symm
      exact ((runCommand_duties config (Watch.ofConfig config) fuel command args).sound env trivial
        (Always.of_forall (fun _ _ => trivial) _)).1

/-- No heartbeat is due within the seconds of the run. -/
def unhurriedConfig : RunConfig := { busyConfig with heartbeat := some (.fromSecs 20) }

theorem zero_timeout_agrees_busy :
    ((runCommand 4 "true" [] { unhurriedConfig with timeout := .zero }).run busyWorld []).1 =
        ((runCommand 4 "true" [] unhurriedConfig).run busyWorld []).1 ∧
      childSignals
          ((runCommand 4 "true" [] { unhurriedConfig with timeout := .zero }).run busyWorld []).2 =
        childSignals ((runCommand 4 "true" [] unhurriedConfig).run busyWorld []).2 ∧
      kevents ((runCommand 4 "true" [] unhurriedConfig).run busyWorld []).2 = 4 := by
  have h := zero_timeout_agrees busyWorld busyWorld 4 "true" [] unhurriedConfig 7 (⟨0⟩, {}) 3 1
    (by decide) (by decide) rfl fun _ _ => ⟨by decide +kernel, by decide +kernel,
      by decide +kernel, by decide +kernel⟩
  exact ⟨h.1, h.2.2.1, by decide +kernel⟩

/-- With a timeout that is not reached the limit is enforced, without one it is not. -/
theorem zero_timeout_ignores_limit :
    (∃ l, (runCommand 2 "hog" [] hundredBytes).run greedyWorld [] =
      (some (.ok (.memoryLimitExceeded .sigterm false (some ⟨0⟩)
        (some (rusageToResourceUsage {})) 100 200)), l) ∧
      childSignals l = [(.monitor, Signal.sigterm.asRaw)] ∧
      (watch (Watch.ofConfig hundredBytes) l).clock <
        (watch (Watch.ofConfig hundredBytes) l).deadline hundredBytes.timeout) ∧
    ∃ l, (runCommand 2 "hog" [] { hundredBytes with timeout := .zero }).run greedyWorld [] =
      (some (.ok (.completed ⟨0⟩ (rusageToResourceUsage {}))), l) ∧ childSignals l = [] := by
  refine ⟨⟨_, rfl, by rfl, ?_⟩, _, rfl, by rfl⟩
  decide +kernel

end Procguard
