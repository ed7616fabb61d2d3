import Procguard.Operands
import Procguard.Resolve

/- TIMEOUT in place of the duration. With the duration left out the parser takes the
   command for the duration and goes on reading options, so the two ways to write a
   command line agree unless the first token after the command is one that is read as
   an option even after the duration. -/
namespace Procguard
open Text

/-! ## Complete options -/

/-- Options with all their values: whatever follows is read from where they end, and they
    leave the parser before its first positional. -/
structure CompleteOptions (opts : List String) : Prop where
  closed : ∀ more, parseTokens { rest := opts ++ more } =
    (parseTokens { rest := opts }).bind fun st => parseTokens { st with rest := more }
  before : ∀ st, parseTokens { rest := opts } = .ok st →
    st.sawSeparator = false ∧ st.result.duration = none ∧ st.result.command = none

/-- Options that the parser reads to their end are complete. -/
theorem CompleteOptions.of_read {opts : List String} {r : Args}
    (h : parseTokens { rest := opts } = .ok ⟨r, false, []⟩) (hdur : r.duration = none)
    (hcmd : r.command = none) : CompleteOptions opts where
  closed more := by
    rw [parseTokens_append h, h]
    rfl
  before st hst := by
    rw [h] at hst
    cases hst
    exact ⟨rfl, hdur, hcmd⟩

theorem Reaches.of_parse {argv : List String} {st st' : ParseState} (h : Reaches argv st)
    (hp : parseTokens st = .ok st') : Reaches argv st' := by
  induction hn : st.rest.length using Nat.strong_induction_on generalizing st with
  | _ n ih =>
    cases hrest : st.rest with
    | nil =>
      rw [parseTokens_nil hrest] at hp
      cases hp
      exact h
    | cons arg rest =>
      rw [parseTokens_cons hrest] at hp
      cases ht : parseToken st arg rest with
      | error e => rw [ht] at hp; cases hp
      | ok st₁ =>
        rw [ht] at hp
        have hle := (parseToken_taken ht).length_le
        have hlt : st₁.rest.length < n := by rw [← hn, hrest, List.length_cons]; omega
        exact ih _ hlt (h.step hrest ht) hp rfl

/-- The arguments with other positionals. -/
def Args.setPositionals (r : Args) (duration command : Option String) (args : List String) : Args :=
  { r with duration, command, args }

/-- What complete options leave behind. -/
theorem CompleteOptions.read {opts : List String} (ho : CompleteOptions opts) {st : ParseState}
    (h : parseTokens { rest := opts } = .ok st) :
    st = ⟨st.result.setPositionals none none [], false, []⟩ := by
  obtain ⟨hsep, hdur, hcmd⟩ := ho.before st h
  have hrest : st.rest = [] := parseTokens_rest h
  have hargs : st.result.args = [] := (Reaches.start.of_parse h).args_nil hcmd
  obtain ⟨r, sep, rest⟩ := st
  obtain ⟨⟩ := r
  subst hsep hdur hcmd hrest hargs
  rfl

/-- Refused by themselves: a bad value, an unknown option, help, or `-v` with `-q`. -/
def refused (opts : List String) : Bool := !(parseFromSlice opts).isOk

/-- A token that is read as an option after the duration too. -/
def optionAfterDuration (arg : String) : Bool := arg != "--" && (classify arg).isOption

/-! ## Positionals of a line -/

section line
variable {r : Args} {d c : String} {rest : List String}

theorem parseToken_operand {rest₀ : List String} (hcmd : r.command = none)
    (hsep : c ≠ "--") (hread : readsOption r c = false) :
    parseToken ⟨r, false, rest₀⟩ c rest = .ok ⟨r.positional c, false, rest⟩ := by
  unfold parseToken
  simp only [Bool.false_eq_true, if_false, hsep, hcmd, Option.isSome_none,
    readOption_positional hread]
  rfl

theorem operand_ne_separator (h : startsWith c "-" = false) : c ≠ "--" := by
  intro hc
  rw [hc] at h
  exact absurd h (by decide)

theorem readsOption_operand (h : startsWith c "-" = false) : readsOption r c = false := by
  unfold readsOption
  rw [classify_operand h]
  rfl

/-- Reading the duration. -/
theorem parseTokens_duration (h : startsWith d "-" = false) :
    parseTokens ⟨r.setPositionals none none [], false, d :: rest⟩ =
      parseTokens ⟨r.setPositionals (some d) none [], false, rest⟩ := by
  rw [parseTokens_cons rfl,
    parseToken_operand rfl (operand_ne_separator h) (readsOption_operand h)]
  rfl

/-- Reading the command after the duration, and with it the rest of the line. -/
theorem parseTokens_line (hc : c ≠ "--")
    (hread : readsOption (r.setPositionals (some d) none []) c = false) :
    parseTokens ⟨r.setPositionals (some d) none [], false, c :: rest⟩ =
      .ok ⟨r.setPositionals (some d) (some c) (rest.erase "--"), rest.contains "--", []⟩ := by
  rw [parseTokens_cons rfl, parseToken_operand rfl hc hread]
  show parseTokens ⟨r.setPositionals (some d) (some c) [], false, rest⟩ = _
  rw [parseTokens_command rfl]
  rfl

theorem readsOption_after_duration (arg : String) :
    readsOption (r.setPositionals (some d) none []) arg = (classify arg).isOption := by
  unfold readsOption Args.setPositionals
  simp

/-- **The line read without its command**: unless its first token is read as an option, it
    splits into a command and its arguments. -/
theorem parseTokens_headless (h : ∀ w, rest.head? = some w → optionAfterDuration w = false) :
    ∃ cmd as sep, parseTokens ⟨r.setPositionals (some d) none [], false, rest⟩ =
        .ok ⟨r.setPositionals (some d) cmd as, sep, []⟩ ∧
      cmd.toList ++ as = rest.erase "--" := by
  cases rest with
  | nil => exact ⟨none, [], false, parseTokens_nil rfl, rfl⟩
  | cons w rest =>
    have hw := h w rfl
    by_cases hsep : w = "--"
    · -- the separator comes first: the next token is the command, whatever it is
      subst hsep
      have hfirst : parseTokens ⟨r.setPositionals (some d) none [], false, "--" :: rest⟩ =
          parseTokens ⟨r.setPositionals (some d) none [], true, rest⟩ := by
        rw [parseTokens_cons rfl]
        rfl
      rw [List.erase_cons_head, hfirst]
      cases rest with
      | nil => exact ⟨none, [], true, parseTokens_nil rfl, rfl⟩
      | cons x rest =>
        refine ⟨some x, rest, true, ?_, rfl⟩
        rw [parseTokens_cons rfl]
        show parseTokens ⟨r.setPositionals (some d) (some x) [], true, rest⟩ = _
        rw [parseTokens_command rfl]
        rfl
    · have hread : readsOption (r.setPositionals (some d) none []) w = false := by
        rw [readsOption_after_duration]
        unfold optionAfterDuration at hw
        rwa [bne_iff_ne.mpr hsep, Bool.true_and] at hw
      refine ⟨some w, rest.erase "--", _, parseTokens_line hsep hread, ?_⟩
      rw [List.erase_cons_tail (by simpa using hsep)]
      rfl

end line

/-! ## Counting positionals -/

/-- The command and its arguments. -/
def Args.operands (r : Args) : List String := r.command.toList ++ r.args

theorem Args.positional_operands (r : Args) (arg : String) :
    (r.positional arg).operands.length ≤ r.operands.length + 1 := by
  unfold Args.positional Args.operands
  split
  · simp
  · split
    · next hnone => simp [Option.isNone_iff_eq_none.mp hnone]
    · simp only [List.length_append, List.length_singleton]
      omega

theorem Args.operand_operands (r : Args) (arg : String) :
    (r.operand arg).operands.length ≤ r.operands.length + 1 := by
  unfold Args.operand Args.operands
  split
  · next hnone => simp [Option.isNone_iff_eq_none.mp hnone]
  · simp only [List.length_append, List.length_singleton]
    omega

theorem OptionsSet.operands {r r' : Args} (h : OptionsSet r r') : r'.operands = r.operands := by
  unfold Args.operands
  rw [h.command, h.args]

/-- An option that takes tokens leaves fewer for the command. -/
theorem LeftOf.erase_length {rest rest' : List String} (h : LeftOf rest rest') :
    (rest'.erase "--").length ≤ (rest.erase "--").length := by
  rcases h with rfl | ⟨val, rfl⟩
  · exact Nat.le_refl _
  · rw [List.erase_cons]
    split
    · exact List.length_erase_le
    · rw [List.length_cons]
      omega

/-- **No token becomes two positionals**, and the first separator becomes none. -/
theorem parseTokens_operands {st st' : ParseState} (h : parseTokens st = .ok st') :
    st'.result.operands.length ≤
      st.result.operands.length + (afterCommand st.sawSeparator st.rest).length := by
  refine parseTokens_rule (P := fun st st' => st'.result.operands.length ≤
    st.result.operands.length + (afterCommand st.sawSeparator st.rest).length)
    (fun _ _ => Nat.le_add_right _ _) (fun st st₁ st' arg rest hrest ht hP => ?_) h
  obtain ⟨r, sep, rest₀⟩ := st
  subst hrest
  cases ht with
  | operand hsep =>
    subst hsep
    have := r.operand_operands arg
    simp only [afterCommand, if_true, List.length_cons] at hP ⊢
    omega
  | separator hsep harg =>
    subst hsep harg
    simpa [afterCommand] using hP
  -- a token adds one operand at most, and no token but the separator is dropped
  | argument hsep harg hcmd =>
    subst hsep
    have hlen : ({ r with args := r.args ++ [arg] } : Args).operands.length =
        r.operands.length + 1 := by
      simp [Args.operands, Nat.add_assoc]
    simp only [afterCommand, Bool.false_eq_true, if_false, hlen] at hP ⊢
    rw [List.erase_cons_tail (by simpa using harg), List.length_cons]
    omega
  | positional hsep harg =>
    subst hsep
    have := r.positional_operands arg
    simp only [afterCommand, Bool.false_eq_true, if_false] at hP ⊢
    rw [List.erase_cons_tail (by simpa using harg), List.length_cons]
    omega
  -- an option may take its value along, so the rest gets shorter still
  | option hsep harg _ _ hset hleft =>
    subst hsep
    have hle := hleft.erase_length
    simp only [afterCommand, Bool.false_eq_true, if_false, hset.operands] at hP ⊢
    rw [List.erase_cons_tail (by simpa using harg), List.length_cons]
    omega

/-- A duration that is set stays. -/
theorem parseTokens_keeps_duration {d : String} {st st' : ParseState}
    (h : parseTokens st = .ok st') (hd : st.result.duration = some d) :
    st'.result.duration = some d := by
  refine parseTokens_rule (P := fun st st' => st.result.duration = some d →
    st'.result.duration = some d) (fun _ _ h => h) (fun st st₁ st' arg rest _ ht hP hd => hP ?_) h hd
  cases ht with
  | operand =>
    show (st.result.operand arg).duration = some d
    unfold Args.operand
    split <;> exact hd
  | separator => exact hd
  | argument => exact hd
  | positional =>
    show (st.result.positional arg).duration = some d
    unfold Args.positional
    rw [if_neg (by simp [hd])]
    split <;> exact hd
  | option _ _ _ _ hset _ => exact hset.duration.trans hd

/-! ## The two command lines -/

section lines
variable {env : Environment} {opts rest : List String} {e c : String} {r : Args}

theorem parseFromSlice_of_tokens {argv : List String} {st : ParseState}
    (h : parseTokens { rest := argv } = .ok st)
    (hnoise : ¬ (st.result.verbose = true ∧ st.result.quiet = true)) :
    parseFromSlice argv = .ok st.result := by
  unfold parseFromSlice
  rw [h]
  exact if_neg (by rwa [Bool.and_eq_true])

/-- A line that asks for both `-v` and `-q` is refused. -/
theorem parseFromSlice_conflict {argv : List String}
    (h : ∀ st, parseTokens { rest := argv } = .ok st →
      st.result.verbose = true ∧ st.result.quiet = true) : ∃ x, parseFromSlice argv = .error x := by
  unfold parseFromSlice
  cases hp : parseTokens { rest := argv } with
  | error x => exact ⟨x, rfl⟩
  | ok st => exact ⟨_, if_pos (by rw [Bool.and_eq_true]; exact h st hp)⟩

/-- The option fields, the resolved positionals apart. -/
theorem resolved_eq (env : Environment) (argv : List String) :
    resolved env argv = (parseFromSlice argv).map fun r =>
      let res := resolveArgs (r.applyEnv env) (env "TIMEOUT")
      (r.applyEnv env).setPositionals res.duration res.command res.args := by
  unfold resolved parseArgs
  cases parseFromSlice argv <;> rfl

/-- Once the duration is set, TIMEOUT makes no difference to `parse_args`. -/
theorem applyEnv_setPositionals (val : Option String) (cmd : Option String) (as : List String) :
    (r.setPositionals (some c) cmd as).applyEnv (env.withTimeout val) =
      (r.applyEnv env).setPositionals (some c) cmd as := by
  have hother : ∀ name, name ≠ "TIMEOUT" → env.withTimeout val name = env name := by
    intro name hname
    exact Function.update_of_ne hname _ _
  unfold Args.applyEnv Args.setPositionals
  simp only [hother "TIMEOUT_SIGNAL" (by decide), hother "TIMEOUT_KILL_AFTER" (by decide),
    hother "TIMEOUT_WAIT_FOR_FILE" (by decide), hother "TIMEOUT_WAIT_FOR_FILE_TIMEOUT" (by decide),
    hother "TIMEOUT_RETRY" (by decide), hother "TIMEOUT_HEARTBEAT" (by decide),
    hother "TIMEOUT_STDIN_TIMEOUT" (by decide), Option.some_or]

theorem withTimeout_timeout (val : Option String) : env.withTimeout val "TIMEOUT" = val := by
  exact Function.update_self _ _ _

/-- The line with the duration written out. -/
theorem resolved_written {cmd : String} {as : List String} {argv : List String}
    (h : parseFromSlice argv = .ok (r.setPositionals (some e) (some cmd) as)) :
    resolved (env.withTimeout none) argv =
      .ok ((r.applyEnv env).setPositionals (some e) (some cmd) as) := by
  rw [resolved_eq, h]
  show Except.ok _ = _
  simp only [applyEnv_setPositionals, withTimeout_timeout]
  rfl

/-- The line without it: the shift puts the first positional back in its place. -/
theorem resolved_shifted {cmd : Option String} {as : List String} {argv : List String}
    (hc : isDuration c = false)
    (h : parseFromSlice argv = .ok (r.setPositionals (some c) cmd as)) :
    resolved (env.withTimeout (some e)) argv =
      .ok ((r.applyEnv env).setPositionals (some e) (some c) (cmd.toList ++ as)) := by
  rw [resolved_eq, h]
  show Except.ok _ = _
  simp only [applyEnv_setPositionals, withTimeout_timeout]
  cases cmd with
  | none => rfl
  | some cmd =>
    simp only [resolveArgs, Args.setPositionals, hc, Bool.not_false, if_true]
    rfl

/-- An option after the command: what is left of the line is too short. -/
theorem parseTokens_option_short {w : String} {st : ParseState}
    (hw : optionAfterDuration w = true)
    (h : parseTokens ⟨r.setPositionals (some c) none [], false, w :: rest⟩ = .ok st) :
    st.result.operands.length < ((w :: rest).erase "--").length := by
  unfold optionAfterDuration at hw
  rw [Bool.and_eq_true, bne_iff_ne] at hw
  rw [List.erase_cons_tail (by simpa using hw.1), List.length_cons]
  rw [parseTokens_cons rfl] at h
  cases ht : parseToken ⟨r.setPositionals (some c) none [], false, w :: rest⟩ w rest with
  | error e => rw [ht] at h; cases h
  | ok st₁ =>
    rw [ht] at h
    have hbound := parseTokens_operands (show parseTokens st₁ = .ok st from h)
    cases parseToken_taken ht with
    | operand hsep => cases hsep
    | separator _ harg => exact absurd harg hw.1
    | argument _ _ hcmd => cases hcmd
    | positional _ _ _ hread =>
      rw [readsOption_after_duration, hw.2] at hread
      cases hread
    | option _ _ _ _ hset hleft =>
      have hle := hleft.erase_length
      have hnil : (r.setPositionals (some c) none []).operands.length = 0 := rfl
      simp only [afterCommand, hset.operands, hnil, Bool.false_eq_true, if_false] at hbound
      omega

/-- **TIMEOUT stands in for the duration** exactly when the options are refused anyway, or the
    first token after the command, if there is one, is not read as an option. -/
theorem env_fallback_iff (ho : CompleteOptions opts) (hed : startsWith e "-" = false)
    (hc : isDuration c = false) (hcd : startsWith c "-" = false) :
    (resolved (env.withTimeout (some e)) (opts ++ c :: rest)).toOption =
        (resolved (env.withTimeout none) (opts ++ e :: c :: rest)).toOption ↔
      refused opts = true ∨ ∀ w, rest.head? = some w → optionAfterDuration w = false := by
  cases hread : parseTokens { rest := opts } with
  | error x =>
    -- the options stop the parser in both lines
    have hstop : ∀ more, parseFromSlice (opts ++ more) = .error x := by
      intro more
      unfold parseFromSlice
      rw [ho.closed more, hread]
      rfl
    have hrefused : refused opts = true := by
      unfold refused parseFromSlice
      rw [hread]
      rfl
    rw [resolved_eq, resolved_eq, hstop, hstop]
    exact ⟨fun _ => .inl hrefused, fun _ => rfl⟩
  | ok st =>
    have hst := ho.read hread
    generalize st.result = r at hst
    subst hst
    have hmore : ∀ more, parseTokens { rest := opts ++ more } =
        parseTokens ⟨r.setPositionals none none [], false, more⟩ := by
      intro more
      rw [ho.closed more, hread]
      rfl
    have hshort : parseTokens { rest := opts ++ c :: rest } =
        parseTokens ⟨r.setPositionals (some c) none [], false, rest⟩ := by
      rw [hmore, parseTokens_duration hcd]
    have hfull : parseTokens { rest := opts ++ e :: c :: rest } =
        .ok ⟨r.setPositionals (some e) (some c) (rest.erase "--"), rest.contains "--", []⟩ := by
      rw [hmore, parseTokens_duration hed,
        parseTokens_line (operand_ne_separator hcd) (readsOption_operand hcd)]
    by_cases hnoise : r.verbose = true ∧ r.quiet = true
    · -- both noise options: the conflict is found at the end of either line
      have hboth : ∀ st : ParseState, r.KeepsNoise st.result →
          st.result.verbose = true ∧ st.result.quiet = true :=
        fun st hkeeps => ⟨hkeeps.1 hnoise.1, hkeeps.2 hnoise.2⟩
      obtain ⟨x, hx⟩ := @parseFromSlice_conflict (opts ++ c :: rest) fun st hst =>
        hboth st (parseTokens_noise (hshort.symm.trans hst))
      obtain ⟨y, hy⟩ := @parseFromSlice_conflict (opts ++ e :: c :: rest) fun st hst => by
        rw [hfull] at hst
        cases hst
        exact hnoise
      obtain ⟨z, hz⟩ := @parseFromSlice_conflict opts fun st hst => by
        rw [hread] at hst
        cases hst
        exact hnoise
      have hrefused : refused opts = true := by
        unfold refused
        rw [hz]
        rfl
      rw [resolved_eq, resolved_eq, hx, hy]
      exact ⟨fun _ => .inl hrefused, fun _ => rfl⟩
    · have haccepted : refused opts = false := by
        unfold refused
        rw [parseFromSlice_of_tokens hread hnoise]
        rfl
      have hwritten : resolved (env.withTimeout none) (opts ++ e :: c :: rest) =
          .ok ((r.applyEnv env).setPositionals (some e) (some c) (rest.erase "--")) :=
        resolved_written (parseFromSlice_of_tokens hfull hnoise)
      rw [hwritten, haccepted]
      constructor
      · intro heq
        refine .inr fun w hw => Bool.eq_false_iff.mpr fun hoption => ?_
        obtain ⟨rest', rfl⟩ : ∃ rest', rest = w :: rest' := List.head?_eq_some_iff.mp hw
        cases hp : parseFromSlice (opts ++ c :: w :: rest') with
        | error x =>
          rw [resolved_eq, hp] at heq
          cases heq
        | ok r' =>
          obtain ⟨st, hst, rfl, -⟩ := parseFromSlice_tokens hp
          rw [hshort] at hst
          have hlt := parseTokens_option_short hoption hst
          have hdur := parseTokens_keeps_duration hst rfl
          have hset : st.result =
              st.result.setPositionals (some c) st.result.command st.result.args := by
            rw [← hdur]
            rfl
          rw [hset] at hp
          rw [resolved_shifted hc hp] at heq
          have hargs := congrArg (fun a => a.elim [] Args.args) heq
          have : st.result.operands = (w :: rest').erase "--" := hargs
          rw [this] at hlt
          exact absurd hlt (Nat.lt_irrefl _)
      · intro hcond
        have hhead := hcond.resolve_left Bool.false_ne_true
        obtain ⟨cmd, as, sep, hp, hsplit⟩ := parseTokens_headless (r := r) (d := c) hhead
        rw [resolved_shifted hc (parseFromSlice_of_tokens (hshort.trans hp) hnoise), hsplit]

/-- `TIMEOUT=5s procguard --json -k 1s echo hello`. -/
theorem env_fallback_echo :
    (resolved (Environment.withTimeout (fun _ => none) (some "5s"))
        (["--json", "-k", "1s"] ++ "echo" :: ["hello"])).toOption =
      (resolved (Environment.withTimeout (fun _ => none) none)
        (["--json", "-k", "1s"] ++ "5s" :: "echo" :: ["hello"])).toOption ↔
      refused ["--json", "-k", "1s"] = true ∨
        ∀ w, ["hello"].head? = some w → optionAfterDuration w = false :=
  env_fallback_iff
    (.of_read (r := { json := true, killAfter := some "1s" }) (by decide) rfl rfl)
    (by decide) (by decide +kernel) (by decide)

/-- `TIMEOUT=5s procguard echo -v hello`: the command loses its first argument. -/
theorem env_fallback_echo_v : ¬ ∀ (env : Environment) (opts : List String) (e c : String)
    (rest : List String), CompleteOptions opts → isDuration e = true → startsWith e "-" = false →
    isDuration c = false → startsWith c "-" = false →
    (resolved (env.withTimeout (some e)) (opts ++ c :: rest)).toOption =
      (resolved (env.withTimeout none) (opts ++ e :: c :: rest)).toOption := by
  intro h
  have heq := h (fun _ => none) [] "5s" "echo" ["-v", "hello"] (.of_read (r := {}) rfl rfl rfl)
    (by decide +kernel) (by decide) (by decide +kernel) (by decide)
  exact absurd heq (by decide +kernel)

end lines

end Procguard
