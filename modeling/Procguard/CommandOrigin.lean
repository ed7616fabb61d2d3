import Procguard.EnvFallback
import Procguard.Output

/- Where the command comes from. An operand of the parser is a token of the command
   line; `resolve_args` makes the command of one of them, unless the command line has
   none at all: then TIMEOUT, which stands in for the duration already, is taken for
   the first positional, and so for the command. -/
namespace Procguard
open Interact Text

/-! ## Operands are tokens -/

/-- The duration and the command are these, or tokens of that list. -/
def OperandsIn (st st' : ParseState) : Prop :=
  (∀ d, st'.result.duration = some d → st.result.duration = some d ∨ d ∈ st.rest) ∧
    ∀ c, st'.result.command = some c → st.result.command = some c ∨ c ∈ st.rest

theorem LeftOf.subset {rest rest' : List String} (h : LeftOf rest rest') {s : String}
    (hs : s ∈ rest') : s ∈ rest := by
  rcases h with rfl | ⟨val, rfl⟩
  · exact hs
  · exact List.mem_cons_of_mem _ hs

/-- An iteration takes its operand from the line. -/
theorem Taken.operands {st st' : ParseState} {arg : String} {rest : List String}
    (hrest : st.rest = arg :: rest) (ht : Taken st arg rest st') :
    OperandsIn st st' ∧ ∀ s ∈ st'.rest, s ∈ st.rest := by
  have htoken : arg ∈ st.rest := by
    rw [hrest]
    exact List.mem_cons_self ..
  have hlater : ∀ s ∈ rest, s ∈ st.rest := by
    intro s hs
    rw [hrest]
    exact List.mem_cons_of_mem _ hs
  cases ht with
  | operand hsep =>
    refine ⟨⟨fun d hd => ?_, fun c hc => ?_⟩, hlater⟩
    · unfold Args.operand at hd
      split at hd <;> exact .inl hd
    · unfold Args.operand at hc
      split at hc
      · cases hc; exact .inr htoken
      · exact .inl hc
  | separator => exact ⟨⟨fun _ => .inl, fun _ => .inl⟩, hlater⟩
  | argument => exact ⟨⟨fun _ => .inl, fun _ => .inl⟩, hlater⟩
  | positional =>
    refine ⟨⟨fun d hd => ?_, fun c hc => ?_⟩, hlater⟩
    · unfold Args.positional at hd
      split at hd
      · cases hd; exact .inr htoken
      · split at hd <;> exact .inl hd
    · unfold Args.positional at hc
      split at hc
      · exact .inl hc
      · split at hc
        · cases hc; exact .inr htoken
        · exact .inl hc
  | option _ _ _ _ hset hleft =>
    refine ⟨⟨fun d hd => .inl (hset.duration.symm.trans hd), fun c hc => ?_⟩, fun s hs => ?_⟩
    · exact .inl (hset.command.symm.trans hc)
    · exact hlater s (hleft.subset hs)

theorem OperandsIn.trans {st st₁ st' : ParseState} (h : OperandsIn st st₁)
    (hrest : ∀ s ∈ st₁.rest, s ∈ st.rest) (h' : OperandsIn st₁ st') : OperandsIn st st' := by
  constructor
  · intro d hd
    exact (h'.1 d hd).elim (h.1 d) fun hmem => .inr (hrest d hmem)
  · intro c hc
    exact (h'.2 c hc).elim (h.2 c) fun hmem => .inr (hrest c hmem)

/-- The duration and the command that the parser finds are tokens. -/
theorem parseFromSlice_operands {argv : List String} {r : Args} (h : parseFromSlice argv = .ok r)
    {s : String} (hs : r.duration = some s ∨ r.command = some s) : s ∈ argv := by
  obtain ⟨st, hst, rfl, -⟩ := parseFromSlice_tokens h
  have hin : OperandsIn { rest := argv } st := by
    refine parseTokens_rule (P := OperandsIn) (fun _ _ => ⟨fun _ => .inl, fun _ => .inl⟩)
      (fun st st₁ st' arg rest hrest ht hP => ?_) hst
    obtain ⟨hstep, hsub⟩ := ht.operands hrest
    exact hstep.trans hsub hP
  rcases hs with hd | hc
  · exact (hin.1 s hd).resolve_left nofun
  · exact (hin.2 s hc).resolve_left nofun

/-! ## A run that is reached -/

/-- The file that is waited for is there. -/
def HasFile (W : Env MainCall.Ans) : Prop :=
  ∀ l path timeout confine, W l (.waitForFile path timeout confine) = .ok ()

section reached
variable {env : Environment} {argv0 : String} {argv : List String} {args : Args} {l : MainLog}
  {W : Env MainCall.Ans}

/-- A file that is there at once. -/
theorem awaitFile_found (hfile : HasFile W) (prog : String) (config : RunConfig)
    (hw : waitReadable args = true) :
    (awaitFile prog args config).Ensures (AnswersOf W) () l fun r _ _ => r = .ok () := by
  unfold awaitFile
  cases hf : args.waitForFile with
  | none => rfl
  | some path =>
    have hreadable : (waitTimeoutOf args).isOk = true := by
      rwa [waitReadable, hf] at hw
    dsimp only
    rw [Act.ensures_bind]
    refine (readWaitTimeout_adds prog args).mono fun r _ l₁ h₁ => ?_
    obtain ⟨rfl, -⟩ := h₁
    cases ht : waitTimeoutOf args with
    | error e => rw [ht] at hreadable; cases hreadable
    | ok t =>
      dsimp only [Except.mapError]
      rw [Act.ensures_bind]
      refine (verboseLine_adds args _).mono fun r _ l₂ h₂ => ?_
      obtain ⟨rfl, -⟩ := h₂
      dsimp only
      rw [Act.ensures_bind, Act.ensures_call]
      intro a ha
      have hok : a = .ok () := ha.trans (hfile _ _ _ _)
      subst hok
      exact ⟨trivial, (verboseLine_adds args _).mono fun r _ _ h₃ => h₃.1⟩

/-- With good operands and options the run is reached, in a world that has the file. -/
theorem runAccepted_reached (hfile : HasFile W) {accepted : Args} {d c : String} {as : List String}
    {config : RunConfig}
    (ho : operandsOf (applyAlias argv0 accepted) (env "TIMEOUT") = .ok (d, c, as))
    (hc : configOf (applyAlias argv0 accepted) d = .ok config)
    (hw : waitReadable (applyAlias argv0 accepted) = true) :
    (runAccepted env argv0 accepted).Ensures (AnswersOf W) () l fun r _ l' =>
      ∃ code answer, r = .ok code ∧ ⟨.runWithRetry c as config, answer⟩ ∈ l' := by
  unfold runAccepted
  rw [Act.ensures_bind]
  refine (operands_adds _ _ _).mono fun r _ l₁ h₁ => ?_
  obtain ⟨rfl, -⟩ := h₁
  rw [ho]
  dsimp only
  rw [Act.ensures_bind]
  refine (configure_adds _ _ _).mono fun r _ l₂ h₂ => ?_
  obtain ⟨rfl, -⟩ := h₂
  rw [hc]
  dsimp only [Except.mapError]
  rw [Act.ensures_bind]
  refine (awaitFile_found hfile _ config hw).mono fun r _ l₃ h₃ => ?_
  subst h₃
  refine (execute_adds _ _ config c as).mono fun r _ l₄ h₄ => ?_
  obtain ⟨answer, code, out, err, rfl, -, -, hmem⟩ := h₄
  exact ⟨code, answer, rfl, hmem⟩

theorem mem_startedIn {c : String} {as : List String} {config : RunConfig}
    {answer : Except TimeoutError (RunResult × Attempts)}
    (h : ⟨.runWithRetry c as config, answer⟩ ∈ l) : (c, as, config) ∈ startedIn l :=
  List.mem_flatMap.mpr ⟨_, h, List.mem_singleton.mpr rfl⟩

/-- The same of the whole program. -/
theorem mainRun_reached (hfile : HasFile W) (hargs : parseArgs env argv = .ok args) {d c : String}
    {as : List String} {config : RunConfig}
    (ho : operandsOf (applyAlias argv0 args) (env "TIMEOUT") = .ok (d, c, as))
    (hc : configOf (applyAlias argv0 args) d = .ok config)
    (hw : waitReadable (applyAlias argv0 args) = true) :
    ∃ code answer l, mainRun W env argv0 argv = (some (.ok code, ()), l) ∧
      ⟨.runWithRetry c as config, answer⟩ ∈ l := by
  have hensures : (runMain env argv0 argv).Ensures (AnswersOf W) () [] fun r _ l' =>
      ∃ code answer, r = .ok code ∧ ⟨.runWithRetry c as config, answer⟩ ∈ l' := by
    unfold runMain acceptArgs
    rw [hargs]
    exact runAccepted_reached hfile ho hc hw
  obtain ⟨⟨r, ⟨⟩⟩, hrun, code, answer, rfl, hmem⟩ := Prog.Ensures.on_run hensures
  exact ⟨code, answer, _, Prod.ext hrun rfl, hmem⟩

end reached

/-! ## The command of a run -/

/-- Every command that is started is a token of the command line, and one of the operands
    that the parser found there without looking at the environment. -/
def CommandsFromLine (env : Environment) (argv0 : String) (argv : List String) : Prop :=
  ∀ W c as config, (c, as, config) ∈ startedIn (mainRun W env argv0 argv).2 →
    c ∈ argv ∧ ∃ r, parseFromSlice argv = .ok r ∧ (r.duration = some c ∨ r.command = some c)

/-- The command line has no operand, TIMEOUT is a duration, and the options are good. -/
def TakesTimeout (env : Environment) (argv0 : String) (argv : List String) : Prop :=
  ∃ r e, parseFromSlice argv = .ok r ∧ r.duration = none ∧ r.command = none ∧
    env "TIMEOUT" = some e ∧ (configOf (applyAlias argv0 (r.applyEnv env)) e).isOk = true ∧
    waitReadable (applyAlias argv0 (r.applyEnv env)) = true

theorem applyAlias_positionals (argv0 : String) (r : Args) :
    (applyAlias argv0 r).positionals = r.positionals := by
  unfold applyAlias
  split <;> rfl

/-- What is resolved, if the line has an operand and the options are good: its command is one. -/
theorem operandsOf_origin {args : Args} {timeoutEnv : Option String} {r : Args}
    (hpos : args.positionals = (r.duration.or timeoutEnv, r.command, r.args))
    {d c : String} {as : List String} (ho : operandsOf args timeoutEnv = .ok (d, c, as))
    (hc : (configOf args d).isOk = true) :
    (r.duration = some c ∨ r.command = some c) ∨
      (r.duration = none ∧ r.command = none ∧ timeoutEnv = some d) := by
  have hdur : args.duration = r.duration.or timeoutEnv := congrArg Prod.fst hpos
  have hcmd : args.command = r.command := congrArg (fun p => p.2.1) hpos
  -- what is no duration is refused when the configuration is built
  have hbad : ∀ e, isDuration e = false → (configOf args e).isOk = false := by
    intro e he
    unfold configOf
    cases hp : parseDuration e with
    | error x => rfl
    | ok t =>
      rw [isDuration, hp] at he
      cases he
  -- by which of TIMEOUT and the two operands are there
  unfold operandsOf resolveArgs at ho
  rw [hdur, hcmd] at ho
  cases henv : timeoutEnv with
  | none =>
    cases hd : r.duration <;> cases hx : r.command <;> simp [henv, hd, hx] at ho
    exact .inl (.inr (congrArg some ho.2.1))
  | some e =>
    cases hd : r.duration with
    | none =>
      cases hx : r.command with
      | none =>
        simp [henv, hd, hx] at ho
        exact .inr ⟨rfl, rfl, congrArg some ho.1⟩
      | some x =>
        by_cases he : isDuration e = true
        · simp [henv, hd, hx, he] at ho
          exact .inl (.inr (congrArg some ho.2.1))
        · -- TIMEOUT is no duration: it is shifted out, and then refused
          rw [Bool.not_eq_true] at he
          simp [henv, hd, hx, he] at ho
          rw [← ho.1, hbad e he] at hc
          cases hc
    | some x =>
      cases hy : r.command with
      | none =>
        simp [henv, hd, hy] at ho
        exact .inl (.inl (congrArg some ho.2.1))
      | some y =>
        by_cases hx : isDuration x = true
        · simp [henv, hd, hy, hx] at ho
          exact .inl (.inr (congrArg some ho.2.1))
        · rw [Bool.not_eq_true] at hx
          simp [henv, hd, hy, hx] at ho
          exact .inl (.inl (congrArg some ho.2.1))

theorem applyEnv_positionals (env : Environment) (r : Args) :
    (r.applyEnv env).positionals = (r.duration.or (env "TIMEOUT"), r.command, r.args) := by
  unfold Args.applyEnv Args.positionals
  cases r.duration <;> rfl

/-- The arguments that are accepted, as they were parsed. -/
theorem parseArgs_ok {env : Environment} {argv : List String} {args : Args}
    (h : parseArgs env argv = .ok args) : ∃ r, parseFromSlice argv = .ok r ∧ args = r.applyEnv env := by
  unfold parseArgs at h
  cases hp : parseFromSlice argv with
  | error e => rw [hp] at h; cases h
  | ok r =>
    rw [hp] at h
    cases h
    exact ⟨r, rfl, rfl⟩

/-- TIMEOUT alone gives the duration and the command. -/
theorem operandsOf_timeout {args : Args} {e : String} {as : List String}
    (hpos : args.positionals = (some e, none, as)) : operandsOf args (some e) = .ok (e, e, as) := by
  have hdur : args.duration = some e := congrArg Prod.fst hpos
  have hcmd : args.command = none := congrArg (fun p => p.2.1) hpos
  have has : args.args = as := congrArg (fun p => p.2.2) hpos
  unfold operandsOf resolveArgs
  rw [hdur, hcmd, has]

/-- **The command comes from the command line, unless it has none**: in every world the command
    of a run is an operand of the command line, except where that has no operand, TIMEOUT is a
    duration and the options are good. -/
theorem command_origin_iff (env : Environment) (argv0 : String) (argv : List String) :
    CommandsFromLine env argv0 argv ↔ ¬ TakesTimeout env argv0 argv := by
  constructor
  · rintro hline ⟨r, e, hparse, hdur, hcmd, henv, hconfig, hwait⟩
    -- a world that starts nothing is enough to see the command
    have hargs : parseArgs env argv = .ok (r.applyEnv env) := by
      unfold parseArgs
      rw [hparse]
      rfl
    have hpos : (applyAlias argv0 (r.applyEnv env)).positionals = (some e, none, r.args) := by
      rw [applyAlias_positionals, applyEnv_positionals, hdur, hcmd, henv]
      rfl
    have ho : operandsOf (applyAlias argv0 (r.applyEnv env)) (env "TIMEOUT") = .ok (e, e, r.args) := by
      rw [henv]
      exact operandsOf_timeout hpos
    cases hc : configOf (applyAlias argv0 (r.applyEnv env)) e with
    | error x => rw [hc] at hconfig; cases hconfig
    | ok config =>
      obtain ⟨code, answer, l, hrun, hmem⟩ := mainRun_reached (W := refusingWorld)
        (fun _ _ _ _ => rfl) hargs ho hc hwait
      have hstarted : (e, r.args, config) ∈ startedIn (mainRun refusingWorld env argv0 argv).2 := by
        rw [hrun]
        exact mem_startedIn hmem
      obtain ⟨-, r', hparse', hoperand⟩ := hline refusingWorld e r.args config hstarted
      rw [hparse] at hparse'
      cases hparse'
      rw [hdur, hcmd] at hoperand
      exact hoperand.elim nofun nofun
  · intro hnot W c as config hmem
    cases hargs : parseArgs env argv with
    | error x =>
      rw [mainRun_refused hargs] at hmem
      cases hmem
    | ok args =>
      obtain ⟨r, hparse, rfl⟩ := parseArgs_ok hargs
      obtain ⟨code, l, out, err, runs, hrun, hconcl, -, -, hstarted⟩ :=
        @mainRun_concluded W env argv0 argv _ hargs
      rw [hrun] at hmem
      rw [hstarted] at hmem
      cases hconcl with
      | noOperands => cases hmem
      | badOption => cases hmem
      | notFound => cases hmem
      | ran ho hc hw =>
        rw [List.mem_singleton] at hmem
        obtain ⟨rfl, rfl, rfl⟩ := hmem
        have hpos := (applyAlias_positionals argv0 (r.applyEnv env)).trans (applyEnv_positionals env r)
        have hok : (configOf (applyAlias argv0 (r.applyEnv env)) _).isOk = true :=
          congrArg Except.isOk hc
        rcases operandsOf_origin hpos ho hok with horigin | ⟨hdur, hcmd, henv⟩
        · exact ⟨parseFromSlice_operands hparse horigin, r, hparse, horigin⟩
        · exact absurd ⟨r, _, hparse, hdur, hcmd, henv, hok, hw⟩ hnot

/-- `TIMEOUT=5s procguard` runs `5s`. -/
theorem timeout_run_as_command :
    (startedIn (mainRun refusingWorld (fun name => if name = "TIMEOUT" then some "5s" else none)
      "procguard" []).2).map Prod.fst = ["5s"] ∧
    ¬ CommandsFromLine (fun name => if name = "TIMEOUT" then some "5s" else none) "procguard" [] := by
  have hstarted : (startedIn (mainRun refusingWorld
      (fun name => if name = "TIMEOUT" then some "5s" else none) "procguard" []).2).map Prod.fst =
      ["5s"] := by
    decide +kernel
  refine ⟨hstarted, fun hline => ?_⟩
  have hin : "5s" ∈ (startedIn (mainRun refusingWorld
      (fun name => if name = "TIMEOUT" then some "5s" else none) "procguard" []).2).map Prod.fst := by
    rw [hstarted]
    exact List.mem_singleton.mpr rfl
  obtain ⟨⟨c, as, config⟩, hmem, rfl⟩ := List.mem_map.mp hin
  exact List.not_mem_nil (hline refusingWorld _ as config hmem).1

end Procguard
